import Arcade8080.Core.Lemmas
import Arcade8080.Cpu.Call
import Arcade8080.Cpu.Lemmas

/-!
Interrupts as a history tells them. Whether one is pending and whether they are
enabled is nothing but what the latest call or event that concerns it has said,
so the outcome of a step can be read off the calls before it.
-/

namespace Arcade8080

theorem Operation.decode_eq_ei_iff (opcode : Byte) : decode opcode = .ei ↔ opcode = 0xFB := by
  revert opcode
  decide

theorem Operation.decode_eq_di_iff (opcode : Byte) : decode opcode = .di ↔ opcode = 0xF3 := by
  revert opcode
  decide

/-- What a step makes of the interrupt enable: EI sets it, DI and the delivery of
a request clear it, and every other instruction leaves it. -/
def StepOutcome.switch : StepOutcome → Option Bool
  | .executed opcode _ _ =>
    if opcode = 0xFB then some true else if opcode = 0xF3 then some false else none
  | .interrupted _ => some false

namespace Core

theorem enabled_writeOperand (core : Core) (target : Operand) (value : Byte) :
    (core.writeOperand target value).Ensures fun after =>
      after.interruptsEnabled = core.interruptsEnabled := by
  cases target with
  | register name => exact (Bus.ensures_pure _).mpr rfl
  | memory => simp [writeOperand]

theorem enabled_call (core : Core) (target : Word) :
    (core.call target).Ensures fun after =>
      after.interruptsEnabled = core.interruptsEnabled := by
  simp [call, push, storeWord]

/-- Of all instructions only EI and DI concern the enable. -/
theorem enabled_perform (core : Core) (instruction : Instruction) :
    (core.perform instruction).Ensures fun after =>
      after.interruptsEnabled =
        match instruction.operation with
        | .ei => true
        | .di => false
        | _ => core.interruptsEnabled := by
  simp only [perform]
  cases instruction.operation with
  | mov target source =>
    rw [Bus.ensures_bind]
    exact Bus.ensures_of_forall (fun value => enabled_writeOperand core target value) _
  | inr target =>
    rw [Bus.ensures_bind]
    refine Bus.ensures_of_forall (fun value => ?_) _
    exact enabled_writeOperand { core with flags := (Alu.increment core.flags value).2 } target _
  | dcr target =>
    rw [Bus.ensures_bind]
    refine Bus.ensures_of_forall (fun value => ?_) _
    exact enabled_writeOperand { core with flags := (Alu.decrement core.flags value).2 } target _
  | mvi target => exact enabled_writeOperand core target _
  | arithmetic kind source =>
    rw [Bus.ensures_bind]
    exact Bus.ensures_of_forall (fun value => rfl) _
  | lxi target | inx target | dcx target => cases target <;> exact rfl
  | jumpIf condition =>
    dsimp only
    split <;> exact rfl
  | call | rst => exact enabled_call core _
  | callIf condition =>
    dsimp only
    split
    · exact enabled_call core _
    · exact rfl
  | ret => simp [ret, pop, loadWord]
  | retIf condition =>
    dsimp only
    split
    · simp [ret, pop, loadWord]
    · exact rfl
  | push source => simp [push, storeWord]
  | pop target => cases target <;> simp [pop, loadWord, setStackOperand]
  | stax | ldax | sta | lda | shld | lhld | xthl => simp [loadWord, storeWord]
  | _ => exact rfl

theorem enabled_execute (core : Core) (instruction : Instruction) {memory : Memory}
    {outcome : StepOutcome} {after : Core}
    (h : ((core.execute instruction).run memory).result = .ok (outcome, after)) :
    after.interruptsEnabled = outcome.switch.getD core.interruptsEnabled := by
  rw [result_run_execute, Attempt.map_eq_ok_iff] at h
  obtain ⟨ended, hperform, hpair⟩ := h
  cases hpair
  have hended := (enabled_perform (core.past instruction) instruction).result hperform
  simp only [report, StepOutcome.switch]
  rw [hended]
  split
  · rename_i hei
    rw [if_pos ((Operation.decode_eq_ei_iff _).mp hei)]
    rfl
  · rename_i hdi
    have hopcode := (Operation.decode_eq_di_iff _).mp hdi
    rw [hopcode, if_neg (by decide), if_pos rfl]
    rfl
  · rename_i hei hdi
    rw [if_neg fun h => hei ((Operation.decode_eq_ei_iff _).mpr h),
      if_neg fun h => hdi ((Operation.decode_eq_di_iff _).mpr h)]
    rfl

theorem enabled_step (core : Core) (request : Option Restart) {memory : Memory}
    {outcome : StepOutcome} {after : Core}
    (h : ((core.step request).run memory).result = .ok (outcome, after)) :
    after.interruptsEnabled = outcome.switch.getD core.interruptsEnabled := by
  rcases core.step_cases request memory with
    ⟨number, _, _, hresult, _⟩ | ⟨_, ⟨instruction, _, hresult, _⟩ | ⟨fault, _, hresult, _⟩⟩
  · rw [hresult, Attempt.map_eq_ok_iff] at h
    obtain ⟨_, _, hpair⟩ := h
    cases hpair
    rfl
  · rw [hresult] at h
    exact enabled_execute core instruction h
  · rw [hresult] at h
    cases h

theorem not_interrupted_of_execute {core after : Core} {instruction : Instruction}
    {memory : Memory} {number : Restart} :
    ((core.execute instruction).run memory).result ≠ .ok (.interrupted number, after) := by
  intro h
  rw [result_run_execute, Attempt.map_eq_ok_iff] at h
  obtain ⟨_, _, hpair⟩ := h
  cases hpair

/-- A request is delivered exactly where it is due and the stack has room for
the program counter. A window that is closed over the stack does not matter. -/
theorem step_interrupted_iff {core : Core} {request : Option Restart} {memory : Memory}
    {number : Restart} :
    (∃ after, ((core.step request).run memory).result = .ok (.interrupted number, after)) ↔
      request = some number ∧ core.interruptsEnabled = true ∧
        (core.sp - 2).toNat < memory.size ∧ (core.sp - 1).toNat < memory.size := by
  have hhigh : core.sp - 2 + 1 = core.sp - 1 := by bv_omega
  have hroom : ((storeWord (core.sp - 2) core.pc).run memory).result = .ok () ↔
      (core.sp - 2).toNat < memory.size ∧ (core.sp - 2 + 1).toNat < memory.size :=
    result_storeWord_eq_ok_iff
  rw [hhigh] at hroom
  rw [← hroom]
  rcases core.step_cases request memory with
    ⟨wanted, rfl, henabled, hresult, _⟩ | ⟨hidle, hfetched⟩
  · rw [hresult]
    constructor
    · rintro ⟨after, hrun⟩
      obtain ⟨_, hstored, hpair⟩ := Attempt.map_eq_ok_iff.mp hrun
      cases hpair
      exact ⟨rfl, henabled, hstored⟩
    · rintro ⟨hsame, _, hstored⟩
      cases hsame
      exact ⟨_, Attempt.map_eq_ok_iff.mpr ⟨(), hstored, rfl⟩⟩
  · have hnever (after : Core) :
        ((core.step request).run memory).result ≠ .ok (.interrupted number, after) := by
      intro hrun
      rcases hfetched with ⟨instruction, _, hresult, _⟩ | ⟨fault, _, hresult, _⟩
      · rw [hresult] at hrun
        exact not_interrupted_of_execute hrun
      · rw [hresult] at hrun
        cases hrun
    constructor
    · rintro ⟨after, hrun⟩
      exact absurd hrun (hnever after)
    · rintro ⟨rfl, henabled, _⟩
      exact absurd ⟨rfl, henabled⟩ hidle

end Core

namespace Cpu

/-- What a call makes of the pending request, where it concerns it. -/
def Call.request : Call → Option (Option Restart)
  | .interrupt value => some (some (Octal.ofNat value.toNat))
  | .step | .reset => some none
  | _ => none

/-- What an event makes of the interrupt enable, where it concerns it. -/
def Event.switch (event : Event) : Option Bool :=
  if event.call = .reset then some false else event.outcome.bind StepOutcome.switch

def Event.Delivers (event : Event) : Prop := ∃ number, event.outcome = some (.interrupted number)

theorem switch_of_delivers {event : Event} (h : event.Delivers) : event.switch = some false := by
  obtain ⟨number, houtcome⟩ := h
  rw [Event.switch, houtcome]
  split <;> rfl

theorem pending_after (cpu : Cpu) (call : Call) :
    (cpu.after call).pending = call.request.getD cpu.pending := by
  rw [after_eq]
  cases call with
  | interrupt | reset => rfl
  | step | execute | push | pop | writeAtHl | writeByte => exact pending_transact _ _

section Transact

variable {α : Type} {cpu : Cpu}

theorem enabled_transact {program : Core → Bus (StepOutcome × Core)}
    (h : ∀ {outcome after},
      ((program cpu.toCore).run cpu.memory).result = .ok (outcome, after) →
        after.interruptsEnabled = outcome.switch.getD cpu.interruptsEnabled) :
    (cpu.transact program).state.interruptsEnabled =
      ((cpu.transact program).result.toOption.bind StepOutcome.switch).getD
        cpu.interruptsEnabled := by
  cases hresult : (cpu.transact program).result with
  | ok outcome =>
    obtain ⟨after, hrun⟩ := result_transact_eq_ok_iff.mp hresult
    rw [core_transact_of_ok hrun]
    exact h hrun
  | error fault =>
    rw [core_transact_of_error (result_transact_eq_error_iff.mp hresult)]
    rfl

theorem enabled_transact_of_ensures {program : Core → Bus (α × Core)}
    (h : (program cpu.toCore).Ensures fun ended =>
      ended.2.interruptsEnabled = cpu.interruptsEnabled) :
    (cpu.transact program).state.interruptsEnabled = cpu.interruptsEnabled := by
  cases hresult : (cpu.transact program).result with
  | ok value =>
    obtain ⟨after, hrun⟩ := result_transact_eq_ok_iff.mp hresult
    rw [core_transact_of_ok hrun]
    exact h.result hrun
  | error fault => rw [core_transact_of_error (result_transact_eq_error_iff.mp hresult)]

end Transact

theorem enabled_after (cpu : Cpu) (call : Call) :
    (cpu.after call).interruptsEnabled =
      (Event.switch ⟨call, cpu.outcome? call⟩).getD cpu.interruptsEnabled := by
  rw [after_eq]
  cases call with
  | step =>
    rw [outcome?, step_eq]
    exact enabled_transact fun hrun => Core.enabled_step _ _ hrun
  | execute instruction =>
    rw [outcome?, execute_eq]
    exact enabled_transact fun hrun => Core.enabled_execute _ _ hrun
  | interrupt | reset => rfl
  | push value =>
    apply enabled_transact_of_ensures
    simp [Core.push, Core.storeWord]
  | pop =>
    apply enabled_transact_of_ensures
    simp [Core.pop, Core.loadWord]
  | writeAtHl | writeByte =>
    apply enabled_transact_of_ensures
    simp

theorem step_eq_interrupted_iff {cpu : Cpu} {number : Restart} :
    cpu.step.result = .ok (.interrupted number) ↔
      cpu.pending = some number ∧ cpu.interruptsEnabled = true ∧
        (cpu.sp - 2).toNat < cpu.memory.size ∧ (cpu.sp - 1).toNat < cpu.memory.size := by
  rw [step_eq]
  exact result_transact_eq_ok_iff.trans Core.step_interrupted_iff

/-- Only a step delivers, and only while interrupts are enabled. -/
theorem enabled_of_delivers {cpu : Cpu} {call : Call}
    (h : Event.Delivers ⟨call, cpu.outcome? call⟩) : cpu.interruptsEnabled = true := by
  obtain ⟨number, houtcome⟩ := h
  cases call with
  | step =>
    have hresult := Attempt.toOption_eq_some_iff.mp houtcome
    exact (step_eq_interrupted_iff.mp hresult).2.1
  | execute instruction =>
    have hresult := Attempt.toOption_eq_some_iff.mp houtcome
    rw [execute_eq] at hresult
    obtain ⟨after, hrun⟩ := result_transact_eq_ok_iff.mp hresult
    exact absurd hrun Core.not_interrupted_of_execute
  | _ => cases houtcome

/-- A processor that nothing has happened to yet. -/
def fresh (config : Config) (memory : Memory) : Cpu := { ofConfig config with memory }

section Fresh

variable {config : Config} {memory : Memory} {calls : List Call}

theorem pending_afterAll_fresh_iff {number : Restart} :
    ((fresh config memory).afterAll calls).pending = some number ↔
      Latest Call.request calls (some number) := by
  rw [view_afterAll_eq_iff Cpu.pending (fun event => event.call.request) pending_after,
    ← latest_map, map_call_history]
  exact or_iff_left fun ⟨_, hstart⟩ => nomatch hstart

theorem enabled_afterAll_fresh_iff :
    ((fresh config memory).afterAll calls).interruptsEnabled = true ↔
      Latest Event.switch ((fresh config memory).history calls) true := by
  rw [view_afterAll_eq_iff (fun cpu => cpu.interruptsEnabled) Event.switch enabled_after]
  exact or_iff_left fun ⟨_, hstart⟩ => nomatch hstart

end Fresh

/-- A step delivers a request exactly where the latest of the calls that concern
one is a request, interrupts are enabled and the stack has room for the program
counter. Whatever becomes of the request, none is pending after the step.
Interrupts are enabled exactly where the latest of the events that concern them
is an EI, and so an EI stands between any two deliveries. -/
theorem interrupts_follow_history (config : Config) (memory : Memory) (calls : List Call) :
    let cpu := (fresh config memory).afterAll calls
    let events := (fresh config memory).history calls
    (∀ number, cpu.step.result = .ok (.interrupted number) ↔
      Latest Call.request calls (some number) ∧ cpu.interruptsEnabled = true ∧
        (cpu.sp - 2).toNat < cpu.memory.size ∧ (cpu.sp - 1).toNat < cpu.memory.size) ∧
    cpu.step.state.pending = none ∧
    (cpu.interruptsEnabled = true ↔ Latest Event.switch events true) ∧
    ∀ earlier first between second later,
      events = earlier ++ first :: (between ++ second :: later) →
      first.Delivers → second.Delivers → ∃ event ∈ between, event.switch = some true := by
  intro cpu events
  refine ⟨?_, pending_step cpu, enabled_afterAll_fresh_iff, ?_⟩
  · intro number
    rw [step_eq_interrupted_iff, pending_afterAll_fresh_iff]
  · intro earlier first between second later hsplit hfirst hsecond
    rw [← List.cons_append, ← List.append_assoc] at hsplit
    obtain ⟨before, call, hbefore, rfl⟩ := history_split hsplit
    have henabled := enabled_of_delivers hsecond
    rw [enabled_afterAll_fresh_iff, hbefore] at henabled
    exact exists_of_latest henabled (switch_of_delivers hfirst) (by decide)

/-- Interrupts enabled and a stack set up, a request and its delivery. -/
def handshake : List Call :=
  [.execute ⟨0xFB, 0, 0⟩, .execute (.ofWord 0x31 4), .interrupt 1, .step]

/-- After a handshake, a second request is delivered once EI has run again. The
low three bits of 10 are those of 2. -/
theorem interrupts_follow_history_of_handshake :
    ((fresh {} ⟨some #[0, 0, 0, 0], .unrestricted, by decide⟩).afterAll
      (handshake ++ [.execute ⟨0xFB, 0, 0⟩, .interrupt 10])).step.result =
        .ok (.interrupted 2) ∧
    ∃ event ∈ [⟨.execute ⟨0xFB, 0, 0⟩, some (.executed 0xFB 1 none)⟩, ⟨.interrupt 10, none⟩],
      Event.switch event = some true := by
  have hbefore := interrupts_follow_history {} ⟨some #[0, 0, 0, 0], .unrestricted, by decide⟩
    (handshake ++ [.execute ⟨0xFB, 0, 0⟩, .interrupt 10])
  have hafter := interrupts_follow_history {} ⟨some #[0, 0, 0, 0], .unrestricted, by decide⟩
    (handshake ++ [.execute ⟨0xFB, 0, 0⟩, .interrupt 10, .step])
  refine ⟨(hbefore.1 2).mpr ⟨?_, rfl, by decide, by decide⟩, ?_⟩
  · exact ⟨handshake ++ [.execute ⟨0xFB, 0, 0⟩], .interrupt 10, [], rfl, rfl, by simp⟩
  · exact hafter.2.2.2
      [⟨.execute ⟨0xFB, 0, 0⟩, some (.executed 0xFB 1 none)⟩,
        ⟨.execute (.ofWord 0x31 4), some (.executed 0x31 3 none)⟩, ⟨.interrupt 1, none⟩]
      ⟨.step, some (.interrupted 1)⟩ _ ⟨.step, some (.interrupted 2)⟩ []
      rfl ⟨1, rfl⟩ ⟨2, rfl⟩

end Cpu

end Arcade8080
