import Arcade8080.Proofs.ControlFlow
import Arcade8080.Proofs.StackDiscipline

/-!
Calls and returns cancel. Whatever puts the way back on the stack, a call, a restart or the
delivery of a request, the return that follows leaves everything as it was but for the program
counter, and memory but for the two bytes that the word has been in. A delivery does what the
restart of the same number does one address lower, and takes the request on top of it.
-/

namespace Arcade8080

namespace Memory

variable {memory : Memory} {sp value : Word}

/-- A word that has been pushed is there to be popped. -/
theorem word?_pushed (hlow : memory.Takes (sp - 2)) (hhigh : memory.Takes (sp - 1)) :
    (memory.pushed sp value).word? (sp - 2) = some value := by
  have hempty : memory.HoldsWords sp [] := trivial
  obtain ⟨hfirst, hsecond, _⟩ := hempty.pushed (by decide) hlow hhigh value
  rw [word?, hfirst, hsecond]
  simp

theorem keptOutside_pushed (memory : Memory) (sp value : Word) :
    memory.KeptOutside [sp - 2, sp - 1] (memory.pushed sp value) :=
  (KeptOutside.write memory (by simp) _).trans (KeptOutside.write _ (by simp) _)

end Memory

namespace Core

variable {core : Core} {instruction : Instruction} {target : Word}

/-- What it comes to, and what it leaves of memory, to store the program counter below the
stack pointer and go to the target from there. -/
theorem execute_of_call
    (h : (core.past instruction).perform instruction = (core.past instruction).call target)
    (memory : Memory) :
    ((core.execute instruction).run memory).result =
      ((storeWord (core.sp - 2) (core.past instruction).pc).run memory).result.map (fun _ =>
        (core.report instruction,
          { core.past instruction with sp := core.sp - 2, pc := target })) ∧
    ((core.execute instruction).run memory).state =
      ((storeWord (core.sp - 2) (core.past instruction).pc).run memory).state := by
  have hsp : (core.past instruction).sp = core.sp := rfl
  rw [result_run_execute, state_run_execute, h, call_eq, Bus.run_bind_pure, hsp]
  rcases (storeWord (core.sp - 2) (core.past instruction).pc).run memory with
    ⟨_ | _, after, records⟩ <;> exact ⟨rfl, rfl⟩

/-- A restart that stands before the program counter leaves on the stack what a delivery leaves
there. -/
theorem execute_of_rst (core : Core) {number : Restart}
    (h : instruction.operation = .rst number) (memory : Memory) :
    let before : Core := { core with pc := core.pc - 1 }
    ((before.execute instruction).run memory).result =
      ((storeWord (core.sp - 2) core.pc).run memory).result.map (fun _ =>
        (before.report instruction, { core with sp := core.sp - 2, pc := number.address })) ∧
    ((before.execute instruction).run memory).state =
      ((storeWord (core.sp - 2) core.pc).run memory).state := by
  intro before
  have hpast : (before.past instruction).pc = core.pc := by
    rw [past, h]
    exact BitVec.sub_add_cancel core.pc 1
  have hcall : (before.past instruction).perform instruction =
      (before.past instruction).call number.address := by
    simp only [perform, h]
  have hexecute := execute_of_call hcall memory
  rwa [hpast] at hexecute

end Core

namespace Cpu

variable {cpu resumed : Cpu} {attempt : Attempt Cpu StepOutcome} {instruction back : Instruction}
  {target : Word}

/-- The ways to put an address on the stack and go elsewhere, with the processor that comes
back to that address as if nothing had happened. -/
inductive Enters (cpu : Cpu) : Attempt Cpu StepOutcome → Cpu → Prop
  | call (instruction : Instruction) (h : instruction.operation = .call) :
    Enters cpu (cpu.execute instruction) { cpu with pc := cpu.pc + 3 }
  | callIf (instruction : Instruction) (condition : Condition)
      (h : instruction.operation = .callIf condition)
      (hholds : condition.holds cpu.flags = true) :
    Enters cpu (cpu.execute instruction) { cpu with pc := cpu.pc + 3 }
  | rst (instruction : Instruction) (number : Restart)
      (h : instruction.operation = .rst number) :
    Enters cpu (cpu.execute instruction) { cpu with pc := cpu.pc + 1 }
  /-- Nothing stands in the program for a delivery, so it comes back to where it was. -/
  | delivery (number : Restart) (hpending : cpu.pending = some number)
      (henabled : cpu.interruptsEnabled = true) :
    Enters cpu cpu.step { cpu with interruptsEnabled := false, pending := none }

/-- The processor that has left its program counter on the stack. -/
def entered (cpu : Cpu) (target : Word) : Cpu :=
  { cpu with sp := cpu.sp - 2, pc := target, memory := cpu.memory.pushed cpu.sp cpu.pc }

theorem execute_of_call {address : Word} (hlow : (cpu.sp - 2).toNat < cpu.memory.size)
    (hhigh : (cpu.sp - 1).toNat < cpu.memory.size)
    (hpast : (cpu.past instruction).pc = address)
    (h : (cpu.past instruction).perform instruction = (cpu.past instruction).call target) :
    (cpu.execute instruction).result = .ok (cpu.report instruction) ∧
      (cpu.execute instruction).state = entered { cpu with pc := address } target := by
  subst hpast
  obtain ⟨hresult, hstate⟩ := Core.execute_of_call h cpu.memory
  obtain ⟨hstored, hmemory⟩ := Core.storeWord_of_lt hlow hhigh (cpu.past instruction).pc
  rw [hstored] at hresult
  rw [hmemory] at hstate
  rw [execute_eq]
  exact cpu.transact_of_ok hresult hstate

theorem step_of_due {number : Restart} (hlow : (cpu.sp - 2).toNat < cpu.memory.size)
    (hhigh : (cpu.sp - 1).toNat < cpu.memory.size) (hpending : cpu.pending = some number)
    (henabled : cpu.interruptsEnabled = true) :
    cpu.step.result = .ok (.interrupted number) ∧
      cpu.step.state =
        entered { cpu with interruptsEnabled := false, pending := none } number.address := by
  have hresult := Core.result_run_step_of_due henabled number cpu.memory
  have hstate := Core.state_run_step_of_due henabled number cpu.memory
  obtain ⟨hstored, hmemory⟩ := Core.storeWord_of_lt hlow hhigh cpu.pc
  rw [hstored] at hresult
  rw [hmemory] at hstate
  rw [step_eq, hpending]
  exact transact_of_ok { cpu with pending := none } hresult hstate

theorem Enters.entered (h : cpu.Enters attempt resumed)
    (hlow : (cpu.sp - 2).toNat < cpu.memory.size)
    (hhigh : (cpu.sp - 1).toNat < cpu.memory.size) :
    ∃ outcome target, attempt.result = .ok outcome ∧ attempt.state = resumed.entered target := by
  cases h with
  | call instruction h =>
    have hpast : (cpu.past instruction).pc = cpu.pc + 3 := by
      rw [Core.past, h]
      rfl
    have hcall : (cpu.past instruction).perform instruction =
        (cpu.past instruction).call instruction.word := by
      simp only [Core.perform, h]
    exact ⟨_, _, execute_of_call hlow hhigh hpast hcall⟩
  | callIf instruction condition h hholds =>
    have hpast : (cpu.past instruction).pc = cpu.pc + 3 := by
      rw [Core.past, h]
      rfl
    have hcall : (cpu.past instruction).perform instruction =
        (cpu.past instruction).call instruction.word := by
      simp only [Core.perform, h]
      exact if_pos hholds
    exact ⟨_, _, execute_of_call hlow hhigh hpast hcall⟩
  | rst instruction number h =>
    have hpast : (cpu.past instruction).pc = cpu.pc + 1 := by
      rw [Core.past, h]
      rfl
    have hcall : (cpu.past instruction).perform instruction =
        (cpu.past instruction).call number.address := by
      simp only [Core.perform, h]
    exact ⟨_, _, execute_of_call hlow hhigh hpast hcall⟩
  | delivery number hpending henabled =>
    exact ⟨_, _, step_of_due hlow hhigh hpending henabled⟩

theorem execute_of_returns (h : cpu.Returns back)
    (hword : cpu.memory.word? cpu.sp = some target) :
    (cpu.execute back).result = .ok (cpu.report back) ∧
      (cpu.execute back).state = { cpu with sp := cpu.sp + 2, pc := target } := by
  have hpast : (cpu.past back).Returns back := h
  have hload : ((Core.loadWord (cpu.past back).sp).run cpu.memory).result = .ok target :=
    Core.result_loadWord_eq_ok_iff.mpr hword
  rw [execute_eq]
  apply transact_of_ok
  · rw [Core.result_run_execute, Core.perform_of_returns hpast, Core.ret_eq, Bus.run_bind_pure,
      hload]
    rfl
  · rw [Core.state_run_execute, Core.perform_of_returns hpast, Core.ret_eq, Bus.run_bind_pure]
    exact (Core.readOnly_loadWord _).state_run cpu.memory

/-- The processor that comes back: only the two bytes below the stack pointer may have
changed. -/
structure CameBack (cpu resumed after : Cpu) : Prop where
  others : after = { resumed with memory := after.memory }
  isAllocated : after.memory.isAllocated = cpu.memory.isAllocated
  size : after.memory.size = cpu.memory.size
  window : after.memory.window = cpu.memory.window
  bytes : cpu.memory.KeptOutside [cpu.sp - 2, cpu.sp - 1] after.memory

/-- A return that follows finds the address that has been left, and takes it back. -/
theorem Enters.cameBack (h : cpu.Enters attempt resumed) (hlow : cpu.memory.Takes (cpu.sp - 2))
    (hhigh : cpu.memory.Takes (cpu.sp - 1)) (hback : attempt.state.Returns back) :
    (∃ outcome, (attempt.state.execute back).result = .ok outcome) ∧
      CameBack cpu resumed (attempt.state.execute back).state := by
  have hsame : resumed.sp = cpu.sp ∧ resumed.memory = cpu.memory := by
    cases h <;> exact ⟨rfl, rfl⟩
  obtain ⟨hsp, hmemory⟩ := hsame
  obtain ⟨_, target, _, hentered⟩ := h.entered hlow.allocated hhigh.allocated
  rw [hentered] at hback ⊢
  have hword : (resumed.entered target).memory.word? (resumed.entered target).sp =
      some resumed.pc := by
    rw [Cpu.entered, hsp, hmemory]
    exact Memory.word?_pushed hlow hhigh
  obtain ⟨hresult, hstate⟩ := execute_of_returns hback hword
  refine ⟨⟨_, hresult⟩, ?_⟩
  have hback : (resumed.entered target).sp + 2 = resumed.sp := BitVec.sub_add_cancel resumed.sp 2
  have hpushed : (resumed.entered target).memory = cpu.memory.pushed cpu.sp resumed.pc := by
    rw [Cpu.entered, hsp, hmemory]
  rw [hstate, hback, hpushed]
  exact
    { others := rfl
      isAllocated := Memory.isAllocated_pushed _ _ _
      size := Memory.size_pushed _ _ _
      window := Memory.window_pushed _ _ _
      bytes := Memory.keptOutside_pushed _ _ _ }

/-- A delivery and a restart that come to the same, but for the enable and for the request
that the delivery has taken. -/
structure DeliversLike (delivered restarted : Attempt Cpu StepOutcome) : Prop where
  error : ∀ fault, delivered.result = .error fault ↔ restarted.result = .error fault
  state : (∃ outcome, delivered.result = .ok outcome) →
    delivered.state = { restarted.state with interruptsEnabled := false, pending := none }
  /-- Both leave the same memory where they fail, too. -/
  memory : delivered.state.memory = restarted.state.memory

theorem deliversLike_rst {number : Restart} (hpending : cpu.pending = some number)
    (henabled : cpu.interruptsEnabled = true) (h : instruction.operation = .rst number) :
    DeliversLike cpu.step (({ cpu with pc := cpu.pc - 1 } : Cpu).execute instruction) := by
  obtain ⟨hrestart, hrestarted⟩ := Core.execute_of_rst cpu.toCore h cpu.memory
  have hdelivery := Core.result_run_step_of_due henabled number cpu.memory
  have hdelivered := Core.state_run_step_of_due henabled number cpu.memory
  have hstep : cpu.step = { cpu with pending := none }.transact (·.step (some number)) := by
    rw [step_eq, hpending]
  rw [hstep, execute_eq]
  constructor
  case error =>
    intro fault
    rw [result_transact_eq_error_iff, result_transact_eq_error_iff, hdelivery, hrestart,
      Attempt.map_eq_error_iff, Attempt.map_eq_error_iff]
  case state =>
    rintro ⟨outcome, hok⟩
    obtain ⟨after, hrun⟩ := result_transact_eq_ok_iff.mp hok
    rw [hdelivery, Attempt.map_eq_ok_iff] at hrun
    obtain ⟨_, hstored, _⟩ := hrun
    rw [hstored] at hdelivery hrestart
    rw [(transact_of_ok { cpu with pending := none } hdelivery hdelivered).2,
      (transact_of_ok { cpu with pc := cpu.pc - 1 } hrestart hrestarted).2]
    rfl
  case memory =>
    rw [memory_transact, memory_transact]
    exact hdelivered.trans hrestarted.symm

/-- CALL, a CALL whose condition holds, RST and the delivery of a request all succeed where
the window admits both bytes below the stack pointer, and RET and every return whose
condition holds then come back to the return address. Nothing else has changed but those
two bytes and, after a delivery, the interrupt enable and the request. On every processor a
delivery does what RST of the same number does at the address before: it fails in the same
cases, and leaves the same apart from the enable and the request. -/
theorem returns_cancel_calls (cpu : Cpu) :
    (∀ attempt resumed, cpu.Enters attempt resumed →
      cpu.memory.Takes (cpu.sp - 2) → cpu.memory.Takes (cpu.sp - 1) →
      (∃ outcome, attempt.result = .ok outcome) ∧
      ∀ back, attempt.state.Returns back →
        (∃ outcome, (attempt.state.execute back).result = .ok outcome) ∧
          CameBack cpu resumed (attempt.state.execute back).state) ∧
    ∀ number, cpu.pending = some number → cpu.interruptsEnabled = true →
      ∀ instruction, instruction.operation = .rst number →
        DeliversLike cpu.step (({ cpu with pc := cpu.pc - 1 } : Cpu).execute instruction) := by
  constructor
  · intro attempt resumed henters hlow hhigh
    obtain ⟨outcome, _, hresult, _⟩ := henters.entered hlow.allocated hhigh.allocated
    exact ⟨⟨outcome, hresult⟩, fun back hback => henters.cameBack hlow hhigh hback⟩
  · intro number hpending henabled instruction hinstruction
    exact deliversLike_rst hpending henabled hinstruction

/-- A call at the end of the address space, with room on the stack for just one word. -/
def calling : Cpu where
  pc := 0xFFFE
  sp := 2
  interruptsEnabled := true
  pending := some (.ofNat 5)
  memory := { cells := some #[0, 0], window := ⟨0, 2⟩ }

/-- CALL and RET come back to address 1, RST 1 and RNZ to the last address, and RET after a
delivery to where the request was taken, with interrupts disabled. That delivery is RST 5 one
address lower. -/
theorem returns_cancel_calls_of_calling :
    ((calling.execute ⟨0xCD, 0x34, 0x12⟩).state.execute ⟨0xC9, 0, 0⟩).state.pc = 1 ∧
    ((calling.execute ⟨0xCF, 0, 0⟩).state.execute ⟨0xC0, 0, 0⟩).state.pc = 0xFFFF ∧
    (calling.step.state.execute ⟨0xC9, 0, 0⟩).state.pc = 0xFFFE ∧
    (calling.step.state.execute ⟨0xC9, 0, 0⟩).state.interruptsEnabled = false ∧
    calling.step.state.toCore =
      { (({ calling with pc := 0xFFFD } : Cpu).execute ⟨0xEF, 0, 0⟩).state.toCore with
        interruptsEnabled := false } := by
  obtain ⟨hcancel, hrestart⟩ := returns_cancel_calls calling
  have hlow : calling.memory.Takes (calling.sp - 2) := ⟨by decide, by decide⟩
  have hhigh : calling.memory.Takes (calling.sp - 1) := ⟨by decide, by decide⟩
  obtain ⟨_, hcall⟩ := hcancel _ _ (.call ⟨0xCD, 0x34, 0x12⟩ rfl) hlow hhigh
  obtain ⟨_, hrst⟩ := hcancel _ _ (.rst ⟨0xCF, 0, 0⟩ (.ofNat 1) rfl) hlow hhigh
  obtain ⟨_, hdelivery⟩ := hcancel _ _ (.delivery (.ofNat 5) rfl rfl) hlow hhigh
  obtain ⟨_, hret⟩ := hcall ⟨0xC9, 0, 0⟩ (.inl rfl)
  obtain ⟨_, hrnz⟩ := hrst ⟨0xC0, 0, 0⟩ (.inr ⟨.nz, rfl, rfl⟩)
  obtain ⟨_, hresumed⟩ := hdelivery ⟨0xC9, 0, 0⟩ (.inl rfl)
  have hsame := (hrestart (.ofNat 5) rfl rfl ⟨0xEF, 0, 0⟩ rfl).state ⟨_, rfl⟩
  exact ⟨congrArg (·.pc) hret.others, congrArg (·.pc) hrnz.others,
    congrArg (·.pc) hresumed.others, congrArg (·.interruptsEnabled) hresumed.others,
    congrArg (·.toCore) hsame⟩

end Cpu

end Arcade8080
