import Arcade8080.Board.Call
import Arcade8080.Proofs.Schedule
import Arcade8080.Cpu.Call
import Arcade8080.Core.Lemmas

/-!
Which flags can stand together. Every instruction that sets Z sets S and P from the same
byte, and a byte that is zero is not negative and has even parity. Only POP PSW takes
flags from memory, where they need not come from any byte; without it Z rules out S and
comes with P in every state that is ever reached.
-/

namespace Arcade8080

theorem Operation.decode_eq_pop_psw_iff (opcode : Byte) :
    decode opcode = .pop .psw ↔ opcode = 0xF1 := by
  revert opcode
  decide

/-- The opcode of the instruction that a step has executed. -/
def StepOutcome.opcode? : StepOutcome → Option Byte
  | .executed opcode _ _ => some opcode
  | .interrupted _ => none

/-- Flags that the same byte can have given. -/
structure Flags.Coherent (flags : Flags) : Prop where
  not_both : ¬ (flags.z = true ∧ flags.s = true)
  parity : flags.z = true → flags.p = true

namespace Flags

theorem coherent_default : Coherent {} where
  not_both := by simp
  parity := by simp

/-- Only the byte 0 sets Z. -/
theorem coherent_withResult (flags : Flags) (value : Byte) : (flags.withResult value).Coherent := by
  have hzero (hz : (flags.withResult value).z = true) : value = 0 := by
    simpa [withResult] using hz
  constructor
  · rintro ⟨hz, hs⟩
    rw [hzero hz] at hs
    cases hs
  · intro hz
    have hparity : Parity.evenByte 0 = true := by decide
    rw [hzero hz]
    exact hparity

end Flags

namespace Alu

theorem coherent_add (flags : Flags) (augend addend : Byte) (carry : Bool) :
    (add flags augend addend carry).2.Coherent :=
  have hsum (wide : BitVec 16) : (flags.withSum wide).Coherent :=
    Flags.coherent_withResult _ (wide.setWidth 8)
  ⟨(hsum _).not_both, (hsum _).parity⟩

theorem coherent_subtract (flags : Flags) (minuend subtrahend : Byte) (borrow : Bool) :
    (subtract flags minuend subtrahend borrow).2.Coherent :=
  have hsum := coherent_add flags minuend (~~~subtrahend) (!borrow)
  ⟨hsum.not_both, hsum.parity⟩

theorem coherent_apply (kind : Arithmetic) (flags : Flags) (a operand : Byte) :
    (apply kind flags a operand).2.Coherent := by
  cases kind with
  | add | adc => exact coherent_add flags a operand _
  | sub | sbb | cmp => exact coherent_subtract flags a operand _
  | ana | xra | ora => exact Flags.coherent_withResult _ _

theorem coherent_increment (flags : Flags) (value : Byte) :
    (increment flags value).2.Coherent :=
  have hresult := Flags.coherent_withResult flags (value + 1)
  ⟨hresult.not_both, hresult.parity⟩

theorem coherent_decrement (flags : Flags) (value : Byte) :
    (decrement flags value).2.Coherent :=
  have hresult := Flags.coherent_withResult flags (value - 1)
  ⟨hresult.not_both, hresult.parity⟩

theorem coherent_decimalAdjust (flags : Flags) (a : Byte) :
    (decimalAdjust flags a).2.Coherent :=
  have hsum (correction : Byte) := coherent_add flags a correction false
  ⟨(hsum _).not_both, (hsum _).parity⟩

end Alu

namespace Core

variable {core : Core}

theorem coherent_writeOperand (h : core.flags.Coherent) (target : Operand) (value : Byte) :
    (core.writeOperand target value).Ensures fun after => after.flags.Coherent := by
  cases target with
  | register name => exact (Bus.ensures_pure _).mpr h
  | memory => simpa [writeOperand] using h

theorem coherent_call (h : core.flags.Coherent) (target : Word) :
    (core.call target).Ensures fun after => after.flags.Coherent := by
  simpa [call, push, storeWord] using h

theorem coherent_ret (h : core.flags.Coherent) :
    core.ret.Ensures fun after => after.flags.Coherent := by
  simpa [ret, pop, loadWord] using h

/-- An instruction leaves Z, S and P alone or sets all three from one byte, but for the one
that reads them from the stack. -/
theorem coherent_perform (h : core.flags.Coherent) {instruction : Instruction}
    (hpop : instruction.operation ≠ .pop .psw) :
    (core.perform instruction).Ensures fun after => after.flags.Coherent := by
  simp only [perform]
  revert hpop
  cases instruction.operation with
  | mov target source =>
    intro _
    rw [Bus.ensures_bind]
    exact Bus.ensures_of_forall (fun value => coherent_writeOperand h target value) _
  | inr target =>
    intro _
    rw [Bus.ensures_bind]
    refine Bus.ensures_of_forall (fun value => ?_) _
    have hset : ({ core with flags := (Alu.increment core.flags value).2 } : Core).flags.Coherent :=
      Alu.coherent_increment core.flags value
    exact coherent_writeOperand hset target _
  | dcr target =>
    intro _
    rw [Bus.ensures_bind]
    refine Bus.ensures_of_forall (fun value => ?_) _
    have hset : ({ core with flags := (Alu.decrement core.flags value).2 } : Core).flags.Coherent :=
      Alu.coherent_decrement core.flags value
    exact coherent_writeOperand hset target _
  | mvi target => exact fun _ => coherent_writeOperand h target _
  | arithmetic kind source =>
    intro _
    rw [Bus.ensures_bind]
    exact Bus.ensures_of_forall (fun value => Alu.coherent_apply kind core.flags _ value) _
  | arithmeticImmediate kind => exact fun _ => Alu.coherent_apply kind core.flags _ _
  | daa => exact fun _ => Alu.coherent_decimalAdjust core.flags _
  | lxi target | inx target | dcx target => cases target <;> exact fun _ => h
  | dad | rotate | stc | cmc => exact fun _ => ⟨h.not_both, h.parity⟩
  | jumpIf condition =>
    intro _
    dsimp only
    split <;> exact h
  | call | rst => exact fun _ => coherent_call h _
  | callIf condition =>
    intro _
    dsimp only
    split
    · exact coherent_call h _
    · exact h
  | ret => exact fun _ => coherent_ret h
  | retIf condition =>
    intro _
    dsimp only
    split
    · exact coherent_ret h
    · exact h
  | push source => simpa [push, storeWord] using h
  | pop target =>
    intro hpop
    cases target with
    | pair name => simpa [pop, loadWord, setStackOperand] using h
    | psw => exact absurd rfl hpop
  | stax | ldax | sta | lda | shld | lhld | xthl =>
    intro _
    simpa [loadWord, storeWord] using h
  | _ => exact fun _ => h

theorem coherent_execute (h : core.flags.Coherent) {instruction : Instruction} {memory : Memory}
    {outcome : StepOutcome} {after : Core}
    (hrun : ((core.execute instruction).run memory).result = .ok (outcome, after))
    (hpop : outcome.opcode? ≠ some 0xF1) : after.flags.Coherent := by
  rw [result_run_execute, Attempt.map_eq_ok_iff] at hrun
  obtain ⟨ended, hperform, hpair⟩ := hrun
  cases hpair
  have hoperation : instruction.operation ≠ .pop .psw := by
    intro hpsw
    exact hpop (congrArg some ((Operation.decode_eq_pop_psw_iff _).mp hpsw))
  have hpast : (core.past instruction).flags.Coherent := h
  exact (coherent_perform hpast hoperation).result hperform

theorem coherent_step (h : core.flags.Coherent) {request : Option Restart} {memory : Memory}
    {outcome : StepOutcome} {after : Core}
    (hrun : ((core.step request).run memory).result = .ok (outcome, after))
    (hpop : outcome.opcode? ≠ some 0xF1) : after.flags.Coherent := by
  rcases core.step_cases request memory with
    ⟨number, _, _, hresult, _⟩ | ⟨_, ⟨instruction, _, hresult, _⟩ | ⟨fault, _, hresult, _⟩⟩
  · rw [hresult, Attempt.map_eq_ok_iff] at hrun
    obtain ⟨_, _, hpair⟩ := hrun
    cases hpair
    exact h
  · rw [hresult] at hrun
    exact coherent_execute h hrun hpop
  · rw [hresult] at hrun
    cases hrun

end Core

namespace Cpu

variable {cpu : Cpu}

/-- A program that fails leaves the flags alone, whatever it would have set. -/
theorem coherent_transact (h : cpu.flags.Coherent) {program : Core → Bus (StepOutcome × Core)}
    (hprogram : ∀ {outcome after},
      ((program cpu.toCore).run cpu.memory).result = .ok (outcome, after) →
        outcome.opcode? ≠ some 0xF1 → after.flags.Coherent)
    (hpop : ∀ outcome ∈ (cpu.transact program).result.toOption, outcome.opcode? ≠ some 0xF1) :
    (cpu.transact program).state.flags.Coherent := by
  cases hresult : (cpu.transact program).result with
  | ok outcome =>
    obtain ⟨after, hrun⟩ := result_transact_eq_ok_iff.mp hresult
    rw [core_transact_of_ok hrun]
    exact hprogram hrun (hpop outcome (Attempt.toOption_eq_some_iff.mpr hresult))
  | error fault =>
    rw [core_transact_of_error (result_transact_eq_error_iff.mp hresult)]
    exact h

/-- What an action reports, where it is a step or an instruction and succeeds. -/
def actOutcome? (cpu : Cpu) : Action → Option StepOutcome
  | .call call => cpu.outcome? call
  | _ => none

theorem coherent_after (h : cpu.flags.Coherent) {call : Call}
    (hpop : ∀ outcome ∈ cpu.outcome? call, outcome.opcode? ≠ some 0xF1) :
    (cpu.after call).flags.Coherent := by
  rw [after_eq]
  cases call with
  | step =>
    have hidle : ({ cpu with pending := none } : Cpu).flags.Coherent := h
    rw [outcome?, step_eq] at hpop
    exact coherent_transact hidle (Core.coherent_step h) hpop
  | execute instruction =>
    rw [outcome?, execute_eq] at hpop
    exact coherent_transact h (Core.coherent_execute h) hpop
  | interrupt value => exact h
  | reset => exact Flags.coherent_default
  | push value =>
    apply core_transact_of_ensures (fun core => core.flags.Coherent) h
    simpa [Core.push, Core.storeWord] using h
  | pop =>
    apply core_transact_of_ensures (fun core => core.flags.Coherent) h
    simpa [Core.pop, Core.loadWord] using h
  | writeAtHl value | writeByte addr value =>
    apply core_transact_of_ensures (fun core => core.flags.Coherent) h
    simpa using h

theorem coherent_act (h : cpu.flags.Coherent) {action : Action} (hflags : action.flags? = none)
    (hpop : ∀ outcome ∈ cpu.actOutcome? action, outcome.opcode? ≠ some 0xF1) :
    (cpu.act action).flags.Coherent := by
  cases action with
  | call call => exact coherent_after h hpop
  | loadImage image =>
    simp only [act, loadImage]
    cases cpu.memory.loadImage image cpu.config.minimumSize.toNat <;> exact h
  | memory | assign => exact h
  | assignFlags flags => cases hflags

/-- A processor that has run no POP PSW since it was made or last reset, and to which no
flags have been assigned. All else that a host can do to it may have been done. -/
inductive Reached : Cpu → Prop
  | made (config : Config) : Reached (ofConfig config)
  | reset (cpu : Cpu) : Reached cpu.reset
  | act {cpu : Cpu} {action : Action} (before : Reached cpu) (hflags : action.flags? = none)
      (hpop : ∀ outcome ∈ cpu.actOutcome? action, outcome.opcode? ≠ some 0xF1) :
      Reached (cpu.act action)

theorem Reached.coherent (h : cpu.Reached) : cpu.flags.Coherent := by
  induction h with
  | made config => exact Flags.coherent_default
  | reset cpu => exact Flags.coherent_default
  | act before hflags hpop ih => exact coherent_act ih hflags hpop

end Cpu

namespace Board

variable {board : Board}

theorem flags_service (board : Board) (outcome : StepOutcome) :
    (board.service outcome).cpu.flags = board.cpu.flags := by
  rw [cpu_service]

theorem coherent_afterTick (h : board.cpu.flags.Coherent) {next : Tick}
    (hpop : ∀ outcome ∈ board.tickOutcome? next, outcome.opcode? ≠ some 0xF1) :
    (board.afterTick next).cpu.flags.Coherent := by
  cases next with
  | request value => exact h
  | step =>
    rw [tickOutcome?, result_step] at hpop
    have hcpu : (board.cpu.after .step).flags.Coherent := Cpu.coherent_after h hpop
    rw [afterTick]
    cases hresult : board.cpu.step.result with
    | ok outcome =>
      rw [state_step_of_ok hresult, flags_service]
      exact hcpu
    | error fault =>
      rw [state_step_of_error hresult]
      exact hcpu

/-- What the steps and instructions of a call report, as far as they succeed. -/
def callOutcomes (board : Board) : Call → List StepOutcome
  | .step => board.step.result.toOption.toList
  | .frame => board.outcomes (frameTicks board.halfFrame)
  | .act action => (board.cpu.actOutcome? action).toList
  | _ => []

/-- The flags that a call assigns, where it does that. -/
def Call.flags? (call : Call) : Option Flags := call.action?.bind Cpu.Action.flags?

theorem coherent_after (h : board.cpu.flags.Coherent) {call : Call}
    (hflags : call.flags? = none)
    (hpop : ∀ outcome ∈ board.callOutcomes call, outcome.opcode? ≠ some 0xF1) :
    (board.after call).cpu.flags.Coherent := by
  cases call with
  | step =>
    have hafter : (board.afterTick .step).cpu.flags.Coherent :=
      coherent_afterTick h fun outcome hmem => hpop outcome (Option.mem_toList.mpr hmem)
    exact hafter
  | frame =>
    rw [after, board_frame]
    exact invariant_leave (fun reached => reached.cpu.flags.Coherent)
      (fun outcome => outcome.opcode? ≠ some 0xF1) (fun hreached => coherent_afterTick hreached)
      h hpop
  | load image =>
    simp only [after, load]
    cases board.cpu.loadImage image with
    | none => exact h
    | some loaded => exact Flags.coherent_default
  | act action =>
    refine Cpu.coherent_act h hflags fun outcome hmem => ?_
    exact hpop outcome (Option.mem_toList.mpr hmem)
  | assignPorts ports => exact h

/-- A board on which such a processor has gone on, under steps and frames of the board that
have run no POP PSW either. -/
inductive Reached : Board → Prop
  | of {board : Board} (h : board.cpu.Reached) : Reached board
  | call {board : Board} {call : Call} (before : Reached board) (hflags : call.flags? = none)
      (hpop : ∀ outcome ∈ board.callOutcomes call, outcome.opcode? ≠ some 0xF1) :
      Reached (board.after call)

theorem Reached.coherent (h : board.Reached) : board.cpu.flags.Coherent := by
  induction h with
  | of h => exact h.coherent
  | call before hflags hpop ih => exact coherent_after ih hflags hpop

end Board

/-- Without POP PSW, Z rules out S and comes with P, on every processor and on every board. -/
theorem flags_coherent_without_pop_psw :
    (∀ cpu : Cpu, cpu.Reached → cpu.flags.Coherent) ∧
    (∀ board : Board, board.Reached → board.cpu.flags.Coherent) :=
  ⟨fun _ h => h.coherent, fun _ h => h.coherent⟩

/-- XRA A on a new processor, and a frame of MVI A,80 and ADD A on a board, both come to
zero, the latter with a carry. -/
theorem flags_coherent_of_zero_results :
    let cpu := (Cpu.ofConfig {}).act (.call (.execute ⟨0xAF, 0, 0⟩))
    (cpu.flags.z = true ∧ cpu.flags.Coherent) ∧
    ∃ blank board records, Board.ofMemorySize 0x10 (.ofLatches 0 0) 1 = some blank ∧
      blank.load #[0x3E, 0x80, 0x87] = some (board, records) ∧
      (board.after .frame).cpu.flags.z = true ∧ (board.after .frame).cpu.flags.cy = true ∧
      (board.after .frame).cpu.flags.Coherent := by
  intro cpu
  have hcpu : cpu.Reached := .act (.made {}) rfl (by decide)
  obtain ⟨blank, hblank⟩ :
      ∃ blank, Board.ofMemorySize 0x10 (.ofLatches 0 0) 1 = some blank := ⟨_, rfl⟩
  cases hblank
  refine ⟨⟨rfl, flags_coherent_without_pop_psw.1 cpu hcpu⟩, _, _, _, rfl, rfl, rfl, rfl, ?_⟩
  exact flags_coherent_without_pop_psw.2 _ (.call (.of (.reset _)) rfl (by decide))

/-- POP PSW takes whatever stands on the stack, here Z without P. -/
example : ¬ (Cpu.step { memory.cells := some #[0xF1, 0x00] }).state.flags.Coherent := by
  intro h
  cases h.parity rfl

end Arcade8080
