import Arcade8080.Board
import Arcade8080.Cpu.Lemmas

/-!
A step of the board is a step of its processor, followed by what the ports do.
The ports reach the processor in register A and nowhere else.
-/

namespace Arcade8080.Board

theorem result_step (board : Board) : board.step.result = board.cpu.step.result := by
  obtain ⟨cpu, ports, halfFrame⟩ := board
  simp only [step]
  rcases cpu.step with ⟨fault | outcome, after, records⟩ <;> rfl

theorem state_step_of_ok {board : Board} {outcome : StepOutcome}
    (h : board.cpu.step.result = .ok outcome) :
    board.step.state = service { board with cpu := board.cpu.step.state } outcome := by
  obtain ⟨cpu, ports, halfFrame⟩ := board
  simp only [step]
  rcases hstep : cpu.step with ⟨fault | reported, after, records⟩
  · simp [hstep] at h
  · simp only [hstep, Except.ok.injEq] at h
    subst h
    rfl

theorem state_step_of_error {board : Board} {fault : Fault}
    (h : board.cpu.step.result = .error fault) :
    board.step.state = { board with cpu := board.cpu.step.state } := by
  obtain ⟨cpu, ports, halfFrame⟩ := board
  simp only [step]
  rcases hstep : cpu.step with ⟨reported | outcome, after, records⟩
  · rfl
  · simp [hstep] at h

theorem records_step (board : Board) : board.step.records = board.cpu.step.records := by
  obtain ⟨cpu, ports, halfFrame⟩ := board
  simp only [step]
  rcases cpu.step with ⟨fault | outcome, after, records⟩ <;> rfl

/-- The ports leave a processor that differs at most in A. -/
theorem cpu_service (board : Board) (outcome : StepOutcome) :
    (board.service outcome).cpu =
      { board.cpu with registers.a := (board.service outcome).cpu.registers.a } := by
  cases outcome with
  | interrupted number => rfl
  | executed opcode length port => rcases port with _ | ⟨port⟩ | ⟨port, value⟩ <;> rfl

@[simp] theorem memory_service (board : Board) (outcome : StepOutcome) :
    (board.service outcome).cpu.memory = board.cpu.memory := by
  rw [cpu_service]

@[simp] theorem halfFrame_service (board : Board) (outcome : StepOutcome) :
    (board.service outcome).halfFrame = board.halfFrame := by
  cases outcome with
  | interrupted number => rfl
  | executed opcode length port => rcases port with _ | ⟨port⟩ | ⟨port, value⟩ <;> rfl

theorem memory_step (board : Board) :
    board.step.state.cpu.memory = board.cpu.step.state.memory := by
  cases h : board.cpu.step.result with
  | ok outcome => rw [state_step_of_ok h, memory_service]
  | error fault => rw [state_step_of_error h]

theorem pending_step (board : Board) : board.step.state.cpu.pending = none := by
  have hcpu : board.cpu.step.state.pending = none := Cpu.pending_step _
  cases h : board.cpu.step.result with
  | ok outcome =>
    rw [state_step_of_ok h, cpu_service]
    exact hcpu
  | error fault =>
    rw [state_step_of_error h]
    exact hcpu

theorem config_step (board : Board) : board.step.state.cpu.config = board.cpu.config := by
  have hcpu : board.cpu.step.state.config = board.cpu.config := Cpu.config_step _
  cases h : board.cpu.step.result with
  | ok outcome =>
    rw [state_step_of_ok h, cpu_service]
    exact hcpu
  | error fault =>
    rw [state_step_of_error h]
    exact hcpu

theorem halfFrame_step (board : Board) : board.step.state.halfFrame = board.halfFrame := by
  cases h : board.cpu.step.result with
  | ok outcome => rw [state_step_of_ok h, halfFrame_service]
  | error fault => rw [state_step_of_error h]

/-- The board after a number of steps, failed ones included. -/
def afterSteps (board : Board) (count : Nat) : Board := Attempt.stateAfter step board count

@[simp] theorem afterSteps_zero (board : Board) : board.afterSteps 0 = board := rfl

theorem afterSteps_succ (board : Board) (count : Nat) :
    board.afterSteps (count + 1) = (board.afterSteps count).step.state := rfl

/-- The first step apart from those after it. -/
theorem afterSteps_succ_eq (board : Board) (count : Nat) :
    board.afterSteps (count + 1) = board.step.state.afterSteps count := by
  rw [Nat.add_comm]
  exact Attempt.stateAfter_add step board 1 count

theorem halfFrame_afterSteps (board : Board) (count : Nat) :
    (board.afterSteps count).halfFrame = board.halfFrame := by
  induction count with
  | zero => rfl
  | succ count ih => rw [afterSteps_succ, halfFrame_step, ih]

end Arcade8080.Board
