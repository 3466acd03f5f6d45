import Arcade8080.Cpu.Call
import Arcade8080.Proofs.Fetching

/-!
Who can tell the auxiliary carry. Most arithmetic sets it, but only DAA looks at it and
only PUSH PSW puts it into memory. Two processors that differ in nothing else answer alike
and go on differing in nothing else, for as long as neither of the two comes up.
-/

namespace Arcade8080

namespace Operation

theorem decode_eq_daa_iff (opcode : Byte) : decode opcode = .daa ↔ opcode = 0x27 := by
  revert opcode
  decide

theorem decode_eq_push_psw_iff (opcode : Byte) : decode opcode = .push .psw ↔ opcode = 0xF5 := by
  revert opcode
  decide

end Operation

namespace Core

/-- The core with the auxiliary carry as given. -/
def withAc (core : Core) (ac : Bool) : Core := { core with flags := { core.flags with ac } }

variable (core : Core) (ac : Bool)

theorem readOperand_withAc (source : Operand) :
    (core.withAc ac).readOperand source = core.readOperand source := by
  cases source <;> rfl

theorem writeOperand_withAc (target : Operand) (value : Byte) :
    (withAc · false) <$> (core.withAc ac).writeOperand target value =
      (withAc · false) <$> core.writeOperand target value := by
  cases target <;> rfl

theorem holds_withAc (condition : Condition) :
    condition.holds (core.withAc ac).flags = condition.holds core.flags := by
  cases condition <;> rfl

theorem apply_withAc (kind : Arithmetic) (a operand : Byte) :
    Alu.apply kind (core.withAc ac).flags a operand = Alu.apply kind core.flags a operand := by
  cases kind <;> rfl

theorem perform_withAc {instruction : Instruction} (hdaa : instruction.operation ≠ .daa)
    (hpush : instruction.operation ≠ .push .psw) :
    (withAc · false) <$> (core.withAc ac).perform instruction =
      (withAc · false) <$> core.perform instruction := by
  simp only [perform]
  revert hdaa hpush
  cases instruction.operation with
  | mov target source =>
    intro _ _
    simp only [readOperand_withAc, map_bind, writeOperand_withAc]
  | mvi target => exact fun _ _ => writeOperand_withAc core ac target _
  | inr target | dcr target =>
    intro _ _
    simp only [readOperand_withAc, map_bind]
    rfl
  | arithmetic kind source =>
    intro _ _
    simp only [readOperand_withAc, apply_withAc, map_bind]
    rfl
  | arithmeticImmediate kind =>
    intro _ _
    simp only [apply_withAc]
    rfl
  | jumpIf condition | callIf condition | retIf condition =>
    intro _ _
    simp only [holds_withAc]
    split <;> rfl
  | daa => exact fun hdaa => absurd rfl hdaa
  | push source =>
    intro _ hpush
    cases source with
    | pair name => rfl
    | psw => exact absurd rfl hpush
  | pop target | lxi target | inx target | dcx target | dad target =>
    intro _ _
    cases target <;> rfl
  | _ => exact fun _ _ => rfl

/-- What a program ends with, but for the auxiliary carry. -/
def apartFromAc {α : Type} (ended : α × Core) : α × Core := (ended.1, ended.2.withAc false)

theorem execute_withAc {instruction : Instruction} (hdaa : instruction.operation ≠ .daa)
    (hpush : instruction.operation ≠ .push .psw) :
    apartFromAc <$> (core.withAc ac).execute instruction =
      apartFromAc <$> core.execute instruction := by
  have hperform := perform_withAc (core.past instruction) ac hdaa hpush
  have hends (program : Bus Core) (outcome : StepOutcome) :
      (program >>= fun after => pure (apartFromAc (outcome, after))) =
        (withAc · false) <$> program >>= fun after => pure (outcome, after) := by
    rw [bind_map_left]
    rfl
  simp only [execute, map_bind, map_pure, hends]
  exact congrArg (fun program => core.announce instruction >>= fun _ => program >>= fun after =>
    pure (core.report instruction, after)) hperform

theorem step_withAc_of_due (h : core.interruptsEnabled = true) (number : Restart) :
    apartFromAc <$> (core.withAc ac).step (some number) =
      apartFromAc <$> core.step (some number) := by
  have hsame : (core.withAc ac).interruptsEnabled = true := h
  simp only [step, h, hsame, if_true]
  rfl

end Core

namespace Cpu

/-- The processor with the auxiliary carry as given. -/
def withAc (cpu : Cpu) (ac : Bool) : Cpu := { cpu with toCore := cpu.toCore.withAc ac }

/-- Two processors that differ in the auxiliary carry or not at all. -/
def SameButAc (first second : Cpu) : Prop := second.withAc false = first.withAc false

/-- Two attempts with the same result that leave such processors behind. -/
structure Alike {α : Type} (first second : Attempt Cpu α) : Prop where
  result : second.result = first.result
  state : first.state.SameButAc second.state
  records : second.records = first.records

theorem SameButAc.exists_withAc {first second : Cpu} (h : first.SameButAc second) :
    ∃ ac, second = first.withAc ac := by
  obtain ⟨⟨registers, ⟨z, s, p, cy, ac⟩, pc, sp, enabled⟩, pending, memory, config⟩ := first
  obtain ⟨⟨others, ⟨otherZ, otherS, otherP, otherCy, otherAc⟩, otherPc, otherSp, otherEnabled⟩,
    otherPending, otherMemory, otherConfig⟩ := second
  cases h
  exact ⟨otherAc, rfl⟩

theorem Alike.after {α : Type} {first second : Attempt Cpu α} (h : Alike first second)
    (records : List Record) : Alike (first.after records) (second.after records) :=
  ⟨h.result, h.state, congrArg (records ++ ·) h.records⟩

/-- What is made of the results is alike as well. -/
theorem Alike.result_map {α β : Type} {first second : Attempt Cpu α} (h : Alike first second)
    (f : α → β) : second.result.map f = first.result.map f :=
  congrArg (Except.map f) h.result

section Calls

variable (cpu : Cpu) (ac : Bool)

/-- Where AC makes no difference to a program but in the core that it ends with, it makes none
to the processor that runs it either. -/
theorem alike_transact {α : Type} {program : Core → Bus (α × Core)}
    (h : Core.apartFromAc <$> program (cpu.withAc ac).toCore =
      Core.apartFromAc <$> program cpu.toCore) :
    Alike (cpu.transact program) ((cpu.withAc ac).transact program) := by
  have hrun := congrArg (fun program => program.run cpu.memory) h
  rw [map_eq_pure_bind, map_eq_pure_bind, Bus.run_bind_pure, Bus.run_bind_pure] at hrun
  obtain ⟨hresult, hstate, hrecords⟩ := Attempt.mk.inj hrun
  have hmemory : (cpu.withAc ac).memory = cpu.memory := rfl
  rw [transact_eq, transact_eq, hmemory]
  generalize (program (cpu.withAc ac).toCore).run cpu.memory = second at *
  generalize (program cpu.toCore).run cpu.memory = first at *
  obtain ⟨result, memory, records⟩ := first
  obtain ⟨other, _, _⟩ := second
  cases hstate
  cases hrecords
  cases result with
  | error fault =>
    cases Attempt.map_eq_error_iff.mp hresult
    exact ⟨rfl, rfl, rfl⟩
  | ok ended =>
    obtain ⟨otherEnded, hother, hended⟩ := Attempt.map_eq_ok_iff.mp hresult
    cases hother
    obtain ⟨hvalue, hafter⟩ := Prod.mk.inj hended
    refine ⟨congrArg Except.ok hvalue, ?_, rfl⟩
    exact congrArg (fun core => (⟨core, cpu.pending, memory, cpu.config⟩ : Cpu)) hafter

theorem alike_execute {instruction : Instruction} (hdaa : instruction.opcode ≠ 0x27)
    (hpush : instruction.opcode ≠ 0xF5) :
    Alike (cpu.execute instruction) ((cpu.withAc ac).execute instruction) := by
  rw [execute_eq, execute_eq]
  apply alike_transact
  apply Core.execute_withAc
  · exact fun hoperation => hdaa ((Operation.decode_eq_daa_iff _).mp hoperation)
  · exact fun hoperation => hpush ((Operation.decode_eq_push_psw_iff _).mp hoperation)

/-- A request is due for delivery. -/
def Due (cpu : Cpu) : Prop := cpu.pending.isSome = true ∧ cpu.interruptsEnabled = true

theorem alike_step_of_due (h : cpu.Due) : Alike cpu.step (cpu.withAc ac).step := by
  obtain ⟨hsome, henabled⟩ := h
  obtain ⟨number, hpending⟩ := Option.isSome_iff_exists.mp hsome
  have hother : (cpu.withAc ac).pending = some number := hpending
  rw [step_eq, step_eq, hpending, hother]
  exact alike_transact { cpu with pending := none } ac
    (Core.step_withAc_of_due cpu.toCore ac henabled number)

theorem alike_step_of_idle (h : ¬ cpu.Due)
    (hopcode : ∀ opcode ∈ cpu.memory.byte? cpu.pc.toNat, opcode ≠ 0x27 ∧ opcode ≠ 0xF5) :
    Alike cpu.step (cpu.withAc ac).step := by
  have hidle : cpu.pending = none ∨ cpu.interruptsEnabled = false := by
    simpa [Due, Classical.or_iff_not_imp_left, Option.isSome_iff_ne_none] using h
  have hother : (cpu.withAc ac).pending = none ∨ (cpu.withAc ac).interruptsEnabled = false := hidle
  cases hmissing : cpu.missing? cpu.memory with
  | some addr =>
    rw [step_of_missing hidle hmissing, step_of_missing hother hmissing]
    exact ⟨rfl, rfl, rfl⟩
  | none =>
    obtain ⟨instruction, hstands, hstep⟩ := exists_stepExecutes hidle hmissing
    obtain ⟨hdaa, hpush⟩ := hopcode instruction.opcode hstands.opcode
    have hotherStep : (cpu.withAc ac).StepExecutes instruction :=
      stepExecutes_of_standsAt hother hstands
    rw [hstep, hotherStep]
    exact (alike_execute { cpu with pending := none } ac hdaa hpush).after cpu.dropped

theorem alike_writeByte (addr : Word) (value : Byte) :
    Alike (cpu.writeByte addr value) ((cpu.withAc ac).writeByte addr value) := by
  rw [writeByte_eq, writeByte_eq]
  exact alike_transact cpu ac rfl

end Calls

/-- The opcode that a call comes to execute, whether or not it then succeeds: none where a
step delivers a request, or has no opcode to go by. -/
def opcode? (cpu : Cpu) : Call → Option Byte
  | .step =>
    if cpu.pending.isSome && cpu.interruptsEnabled then none else cpu.memory.byte? cpu.pc.toNat
  | .execute instruction => some instruction.opcode
  | _ => none

/-- The opcodes that a sequence of calls comes to execute. -/
def opcodes (cpu : Cpu) : List Call → List Byte
  | [] => []
  | call :: rest => (cpu.opcode? call).toList ++ (cpu.after call).opcodes rest

/-- What a host can learn from a call that succeeds. -/
inductive Answer where
  | done
  | ran (outcome : StepOutcome)
  | popped (value : Word)
  deriving DecidableEq

def answer (cpu : Cpu) : Call → Except Fault Answer
  | .step => cpu.step.result.map .ran
  | .execute instruction => (cpu.execute instruction).result.map .ran
  | .interrupt _ | .reset => .ok .done
  | .push value => (cpu.push value).result.map fun _ => .done
  | .pop => cpu.pop.result.map .popped
  | .writeAtHl value => (cpu.writeByte cpu.registers.hl value).result.map fun _ => .done
  | .writeByte addr value => (cpu.writeByte addr value).result.map fun _ => .done

/-- The answers to a sequence of calls, oldest first. -/
def answers (cpu : Cpu) : List Call → List (Except Fault Answer)
  | [] => []
  | call :: rest => cpu.answer call :: (cpu.after call).answers rest

variable {first second : Cpu}

theorem sameButAc_after (h : first.SameButAc second) {call : Call}
    (hopcode : ∀ opcode ∈ first.opcode? call, opcode ≠ 0x27 ∧ opcode ≠ 0xF5) :
    second.answer call = first.answer call ∧ (first.after call).SameButAc (second.after call) := by
  obtain ⟨ac, rfl⟩ := h.exists_withAc
  cases call with
  | step =>
    have hstep : Alike first.step (first.withAc ac).step := by
      by_cases hdue : first.Due
      · exact alike_step_of_due first ac hdue
      · refine alike_step_of_idle first ac hdue fun opcode hmem => hopcode opcode ?_
        rwa [opcode?, if_neg (by simpa [Due] using hdue)]
    exact ⟨hstep.result_map _, hstep.state⟩
  | execute instruction =>
    obtain ⟨hdaa, hpush⟩ := hopcode instruction.opcode rfl
    have hexecute := alike_execute first ac hdaa hpush
    exact ⟨hexecute.result_map _, hexecute.state⟩
  | interrupt | reset => exact ⟨rfl, rfl⟩
  | push value =>
    have hpush : Alike (first.push value) ((first.withAc ac).push value) := by
      rw [push_eq, push_eq]
      exact alike_transact first ac rfl
    exact ⟨hpush.result_map _, hpush.state⟩
  | pop =>
    have hpop : Alike first.pop (first.withAc ac).pop := by
      rw [pop_eq, pop_eq]
      exact alike_transact first ac rfl
    exact ⟨hpop.result_map _, hpop.state⟩
  | writeAtHl value =>
    have hwrite := alike_writeByte first ac first.registers.hl value
    exact ⟨hwrite.result_map _, hwrite.state⟩
  | writeByte addr value =>
    have hwrite := alike_writeByte first ac addr value
    exact ⟨hwrite.result_map _, hwrite.state⟩

theorem sameButAc_afterAll (h : first.SameButAc second) {calls : List Call}
    (hopcodes : ∀ opcode ∈ first.opcodes calls, opcode ≠ 0x27 ∧ opcode ≠ 0xF5) :
    second.answers calls = first.answers calls ∧
      (first.afterAll calls).SameButAc (second.afterAll calls) := by
  induction calls generalizing first second with
  | nil => exact ⟨rfl, h⟩
  | cons call rest ih =>
    obtain ⟨hfirst, hrest⟩ := List.forall_mem_append.mp hopcodes
    obtain ⟨hanswer, hafter⟩ := sameButAc_after h fun opcode hmem =>
      hfirst opcode (Option.mem_toList.mpr hmem)
    obtain ⟨hanswers, hend⟩ := ih hafter hrest
    refine ⟨?_, hend⟩
    rw [answers, answers, hanswer, hanswers]

/-- Every instruction but DAA and PUSH PSW comes to the same whatever AC is, and so does the
delivery of a request. Any calls that come to neither instruction give the same answers and
leave the same but for AC. -/
theorem auxiliary_carry_unobserved (h : first.SameButAc second) :
    (∀ instruction : Instruction, instruction.opcode ≠ 0x27 → instruction.opcode ≠ 0xF5 →
      Alike (first.execute instruction) (second.execute instruction)) ∧
    (first.Due → Alike first.step second.step) ∧
    (∀ calls : List Call,
      (∀ opcode ∈ first.opcodes calls, opcode ≠ 0x27 ∧ opcode ≠ 0xF5) →
      second.answers calls = first.answers calls ∧
        (first.afterAll calls).SameButAc (second.afterAll calls)) := by
  obtain ⟨ac, rfl⟩ := h.exists_withAc
  refine ⟨?_, alike_step_of_due first ac, fun calls => sameButAc_afterAll h⟩
  intro instruction hdaa hpush
  exact alike_execute first ac hdaa hpush

/-- A processor that runs EI, and at the handler of restart 1 DCR A and RAR. -/
def enabling : Cpu where
  sp := 0x10
  memory := ⟨some #[0xFB, 0, 0, 0, 0, 0, 0, 0, 0x3D, 0x1F, 0, 0, 0, 0, 0, 0], .unrestricted,
    by decide⟩

/-- All of that, with the delivery in between, comes to the same whether or not AC is set. -/
theorem auxiliary_carry_unobserved_across_delivery :
    let calls : List Call := [.step, .interrupt 1, .step, .step, .step]
    (enabling.withAc true).answers calls = enabling.answers calls ∧
      (enabling.afterAll calls).SameButAc ((enabling.withAc true).afterAll calls) ∧
      (enabling.afterAll calls).registers.a = 0x7F := by
  intro calls
  have hsame : enabling.SameButAc (enabling.withAc true) := rfl
  obtain ⟨hanswers, hend⟩ := (auxiliary_carry_unobserved hsame).2.2 calls (by decide)
  exact ⟨hanswers, hend, rfl⟩

/-- DAA makes AC visible in A. -/
example : (enabling.execute ⟨0x27, 0, 0⟩).state.registers.a = 0 ∧
    ((enabling.withAc true).execute ⟨0x27, 0, 0⟩).state.registers.a = 6 := by
  decide

end Cpu

end Arcade8080
