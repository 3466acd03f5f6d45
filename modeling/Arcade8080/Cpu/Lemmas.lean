import Arcade8080.Cpu.Transact

/-!
What the operations of the processor take from the program that they run: its
memory always, its core only where it succeeds, and nothing else.
-/

namespace Arcade8080.Cpu

variable {α : Type}

theorem transact_eq (cpu : Cpu) (program : Core → Bus (α × Core)) :
    cpu.transact program =
      let ran := (program cpu.toCore).run cpu.memory
      ⟨ran.result.map Prod.fst,
        { cpu with
          toCore := match ran.result with
            | .ok (_, after) => after
            | .error _ => cpu.toCore
          memory := ran.state },
        ran.records⟩ := by
  obtain ⟨core, pending, memory, config⟩ := cpu
  simp only [transact]
  rcases (program core).run memory with ⟨_ | ⟨value, after⟩, state, records⟩ <;> rfl

@[simp] theorem memory_transact (cpu : Cpu) (program : Core → Bus (α × Core)) :
    (cpu.transact program).state.memory = ((program cpu.toCore).run cpu.memory).state := by
  rw [transact_eq]

@[simp] theorem pending_transact (cpu : Cpu) (program : Core → Bus (α × Core)) :
    (cpu.transact program).state.pending = cpu.pending := by
  rw [transact_eq]

@[simp] theorem config_transact (cpu : Cpu) (program : Core → Bus (α × Core)) :
    (cpu.transact program).state.config = cpu.config := by
  rw [transact_eq]

theorem result_transact_eq_ok_iff {cpu : Cpu} {program : Core → Bus (α × Core)} {value : α} :
    (cpu.transact program).result = .ok value ↔
      ∃ after, ((program cpu.toCore).run cpu.memory).result = .ok (value, after) := by
  rw [transact_eq]
  rcases (program cpu.toCore).run cpu.memory with ⟨_ | ⟨ended, after⟩, state, records⟩ <;>
    simp [Except.map]

theorem result_transact_eq_error_iff {cpu : Cpu} {program : Core → Bus (α × Core)}
    {fault : Fault} :
    (cpu.transact program).result = .error fault ↔
      ((program cpu.toCore).run cpu.memory).result = .error fault := by
  rw [transact_eq]
  rcases (program cpu.toCore).run cpu.memory with ⟨_ | ⟨ended, after⟩, state, records⟩ <;>
    simp [Except.map]

theorem core_transact_of_ok {cpu : Cpu} {program : Core → Bus (α × Core)} {value : α}
    {after : Core} (h : ((program cpu.toCore).run cpu.memory).result = .ok (value, after)) :
    (cpu.transact program).state.toCore = after := by
  rw [transact_eq]
  simp only [h]

theorem core_transact_of_error {cpu : Cpu} {program : Core → Bus (α × Core)} {fault : Fault}
    (h : ((program cpu.toCore).run cpu.memory).result = .error fault) :
    (cpu.transact program).state.toCore = cpu.toCore := by
  rw [transact_eq]
  simp only [h]

theorem transact_of_ok (cpu : Cpu) {program : Core → Bus (α × Core)} {value : α} {after : Core}
    {memory : Memory}
    (hresult : ((program cpu.toCore).run cpu.memory).result = .ok (value, after))
    (hstate : ((program cpu.toCore).run cpu.memory).state = memory) :
    (cpu.transact program).result = .ok value ∧
      (cpu.transact program).state = { cpu with toCore := after, memory } := by
  rw [transact_eq]
  simp only [hresult, hstate]
  exact ⟨rfl, trivial⟩

/-- What holds of a core, and of every core that a program can end with, holds of the core
that the program leaves, whether or not it succeeds. -/
theorem core_transact_of_ensures {cpu : Cpu} {program : Core → Bus (α × Core)}
    (property : Core → Prop) (h : property cpu.toCore)
    (hprogram : (program cpu.toCore).Ensures fun ended => property ended.2) :
    property (cpu.transact program).state.toCore := by
  cases hresult : (cpu.transact program).result with
  | ok value =>
    obtain ⟨after, hrun⟩ := result_transact_eq_ok_iff.mp hresult
    rw [core_transact_of_ok hrun]
    exact hprogram.result hrun
  | error fault =>
    rw [core_transact_of_error (result_transact_eq_error_iff.mp hresult)]
    exact h

theorem pending_step (cpu : Cpu) : cpu.step.state.pending = none := by
  rw [step_eq, pending_transact]

theorem config_step (cpu : Cpu) : cpu.step.state.config = cpu.config := by
  rw [step_eq, config_transact]

/-- The processor after a number of steps, failed ones included. -/
def afterSteps (cpu : Cpu) (count : Nat) : Cpu := Attempt.stateAfter step cpu count

@[simp] theorem afterSteps_zero (cpu : Cpu) : cpu.afterSteps 0 = cpu := rfl

theorem afterSteps_succ (cpu : Cpu) (count : Nat) :
    cpu.afterSteps (count + 1) = (cpu.afterSteps count).step.state := rfl

end Arcade8080.Cpu
