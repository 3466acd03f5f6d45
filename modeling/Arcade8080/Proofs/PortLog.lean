import Arcade8080.Board.Lemmas
import Arcade8080.Core.Lemmas

/-!
The ports as a log. A processor by itself, with a list of what it has sent to
which port, goes through the same states as the one on the board: the ports are
at each moment what the list makes of them, and they act on the processor only
where it asks for one of them.
-/

namespace Arcade8080

namespace StepOutcome

/-- The port that a step asked for. -/
def input? : StepOutcome → Option Byte
  | .executed _ _ (some (.input port)) => some port
  | _ => none

/-- The port that a step sent to, and what it sent. -/
def output? : StepOutcome → Option (Byte × Byte)
  | .executed _ _ (some (.output port value)) => some (port, value)
  | _ => none

theorem eq_of_output?_eq_some {outcome : StepOutcome} {port value : Byte}
    (h : outcome.output? = some (port, value)) :
    ∃ opcode length, outcome = .executed opcode length (some (.output port value)) := by
  cases outcome with
  | interrupted number => cases h
  | executed opcode length access =>
    rcases access with _ | ⟨asked⟩ | ⟨target, sent⟩
    · cases h
    · cases h
    · cases h
      exact ⟨opcode, length, rfl⟩

end StepOutcome

namespace Board.Ports

/-- The ports once all this was sent to them, in order. -/
def writeAll (ports : Ports) (sent : List (Byte × Byte)) : Ports :=
  sent.foldl (fun ports access => ports.write access.1 access.2) ports

@[simp] theorem writeAll_concat (ports : Ports) (sent : List (Byte × Byte)) (port value : Byte) :
    ports.writeAll (sent ++ [(port, value)]) = (ports.writeAll sent).write port value := by
  simp [writeAll]

/-- No port that can be written holds an input latch. -/
theorem latches_write (ports : Ports) (port value : Byte) :
    (ports.write port value).in1 = ports.in1 ∧ (ports.write port value).in2 = ports.in2 := by
  rw [write]
  split <;> exact ⟨rfl, rfl⟩

theorem latches_writeAll (ports : Ports) (sent : List (Byte × Byte)) :
    (ports.writeAll sent).in1 = ports.in1 ∧ (ports.writeAll sent).in2 = ports.in2 := by
  induction sent generalizing ports with
  | nil => exact ⟨rfl, rfl⟩
  | cons access rest ih =>
    obtain ⟨hin1, hin2⟩ := ih (ports.write access.1 access.2)
    obtain ⟨hsame1, hsame2⟩ := latches_write ports access.1 access.2
    exact ⟨hin1.trans hsame1, hin2.trans hsame2⟩

end Board.Ports

theorem Core.portAccess?_eq_output {core : Core} {instruction : Instruction} {port value : Byte}
    (h : core.portAccess? instruction = some (.output port value)) :
    value = core.registers.a := by
  rw [portAccess?] at h
  split at h <;> cases h
  rfl

/-- What a step sends is what A holds. -/
theorem Core.eq_a_of_output?_step {core : Core} {request : Option Restart} {memory : Memory}
    {outcome : StepOutcome} {after : Core} {port value : Byte}
    (h : ((core.step request).run memory).result = .ok (outcome, after))
    (houtput : outcome.output? = some (port, value)) : value = core.registers.a := by
  obtain ⟨opcode, length, rfl⟩ := StepOutcome.eq_of_output?_eq_some houtput
  rcases core.step_cases request memory with
    ⟨number, _, _, hresult, _⟩ | ⟨_, ⟨instruction, _, hresult, _⟩ | ⟨fault, _, hresult, _⟩⟩
  · rw [hresult, Attempt.map_eq_ok_iff] at h
    obtain ⟨_, _, hsame⟩ := h
    cases hsame
  · rw [hresult, result_run_execute, Attempt.map_eq_ok_iff] at h
    obtain ⟨performed, _, hsame⟩ := h
    simp only [report, Prod.mk.injEq, StepOutcome.executed.injEq] at hsame
    exact portAccess?_eq_output hsame.1.2.2
  · rw [hresult] at h
    cases h

/-- A processor by itself, and what it has sent to ports so far. -/
structure Cpu.Logged where
  cpu : Cpu
  sent : List (Byte × Byte) := []

namespace Cpu.Logged

variable {ports : Board.Ports} {logged : Logged} {outcome : StepOutcome}

/-- What follows a step: the list takes what was sent, and A what was asked for,
from ports that got all in the list. -/
def service (ports : Board.Ports) (logged : Logged) (outcome : StepOutcome) : Logged :=
  let sent := logged.sent ++ outcome.output?.toList
  match outcome.input? with
  | some port => ⟨{ logged.cpu with registers.a := (ports.writeAll sent).read port }, sent⟩
  | none => ⟨logged.cpu, sent⟩

/-- One step, on ports as they were when the list began. -/
def step (ports : Board.Ports) (logged : Logged) : Attempt Logged StepOutcome :=
  let stepped := logged.cpu.step
  { result := stepped.result
    state :=
      match stepped.result with
      | .ok outcome => service ports { logged with cpu := stepped.state } outcome
      | .error _ => { logged with cpu := stepped.state }
    records := stepped.records }

def afterSteps (ports : Board.Ports) (logged : Logged) (count : Nat) : Logged :=
  Attempt.stateAfter (step ports) logged count

theorem afterSteps_succ (ports : Board.Ports) (logged : Logged) (count : Nat) :
    logged.afterSteps ports (count + 1) = ((logged.afterSteps ports count).step ports).state := rfl

theorem state_step_of_ok (h : logged.cpu.step.result = .ok outcome) :
    (logged.step ports).state =
      service ports { logged with cpu := logged.cpu.step.state } outcome := by
  simp only [step, h]

theorem sent_service (ports : Board.Ports) (logged : Logged) (outcome : StepOutcome) :
    (logged.service ports outcome).sent = logged.sent ++ outcome.output?.toList := by
  simp only [service]
  cases outcome.input? <;> rfl

theorem cpu_service (h : outcome.input? = none) :
    (logged.service ports outcome).cpu = logged.cpu := by
  simp only [service, h]

/-- The board that a processor and its list stand for. -/
def onBoard (ports : Board.Ports) (halfFrame : Nat) (logged : Logged) : Board :=
  ⟨logged.cpu, ports.writeAll logged.sent, halfFrame⟩

theorem service_onBoard (ports : Board.Ports) (halfFrame : Nat) (logged : Logged)
    (outcome : StepOutcome) :
    (logged.onBoard ports halfFrame).service outcome =
      (logged.service ports outcome).onBoard ports halfFrame := by
  cases outcome with
  | interrupted number =>
    simp [Board.service, service, onBoard, StepOutcome.input?, StepOutcome.output?]
  | executed opcode length access =>
    rcases access with _ | ⟨port⟩ | ⟨port, value⟩ <;>
      simp [Board.service, service, onBoard, StepOutcome.input?, StepOutcome.output?]

/-- The step of the board and that of the processor with its list are one. -/
theorem state_step_onBoard (ports : Board.Ports) (halfFrame : Nat) (logged : Logged) :
    (logged.onBoard ports halfFrame).step.state =
      (logged.step ports).state.onBoard ports halfFrame := by
  have hcpu : (logged.onBoard ports halfFrame).cpu = logged.cpu := rfl
  cases h : logged.cpu.step.result with
  | ok outcome =>
    rw [Board.state_step_of_ok (hcpu ▸ h), state_step_of_ok h, ← service_onBoard]
    rfl
  | error fault =>
    rw [Board.state_step_of_error (hcpu ▸ h)]
    simp only [step, h]
    rfl

end Cpu.Logged

namespace Board

variable {board : Board} {outcomes : List StepOutcome}

/-- The board's processor taken off it, with nothing sent. -/
def unplugged (board : Board) : Cpu.Logged := { cpu := board.cpu }

theorem afterSteps_eq_onBoard (board : Board) (count : Nat) :
    board.afterSteps count =
      (board.unplugged.afterSteps board.ports count).onBoard board.ports board.halfFrame := by
  induction count with
  | zero => rfl
  | succ count ih =>
    rw [afterSteps_succ, ih, Cpu.Logged.state_step_onBoard]
    rfl

/-- The first steps succeed, with these outcomes. -/
def Reports (board : Board) (outcomes : List StepOutcome) : Prop :=
  ∀ index outcome, outcomes[index]? = some outcome →
    (board.afterSteps index).step.result = .ok outcome

theorem Reports.cpu_step {index : Nat} {outcome : StepOutcome} (h : board.Reports outcomes)
    (hindex : outcomes[index]? = some outcome) :
    (board.unplugged.afterSteps board.ports index).cpu.step.result = .ok outcome := by
  have hresult := h index outcome hindex
  rw [result_step, afterSteps_eq_onBoard] at hresult
  exact hresult

/-- Induction on the steps: each adds to the list what its outcome says it sent. -/
theorem Reports.sent_afterSteps {count : Nat} (h : board.Reports outcomes)
    (hcount : count ≤ outcomes.length) :
    (board.unplugged.afterSteps board.ports count).sent =
      (outcomes.take count).filterMap StepOutcome.output? := by
  induction count with
  | zero => rfl
  | succ count ih =>
    have hindex : outcomes[count]? = some outcomes[count] := List.getElem?_eq_getElem hcount
    rw [Cpu.Logged.afterSteps_succ, Cpu.Logged.state_step_of_ok (h.cpu_step hindex),
      Cpu.Logged.sent_service, ih (by omega), List.take_add_one, hindex, List.filterMap_append]
    cases hsent : outcomes[count].output? <;> simp [hsent]

/-- Without a question to the ports, the list does not matter to the processor. -/
theorem Reports.cpu_afterSteps {count : Nat} (h : board.Reports outcomes)
    (hsilent : ∀ outcome ∈ outcomes, outcome.input? = none) (hcount : count ≤ outcomes.length) :
    (board.unplugged.afterSteps board.ports count).cpu = board.cpu.afterSteps count := by
  induction count with
  | zero => rfl
  | succ count ih =>
    have hindex : outcomes[count]? = some outcomes[count] := List.getElem?_eq_getElem hcount
    have hnone := hsilent outcomes[count] (List.getElem_mem hcount)
    rw [Cpu.Logged.afterSteps_succ, Cpu.Logged.state_step_of_ok (h.cpu_step hindex),
      Cpu.Logged.cpu_service hnone, ih (by omega)]
    rfl

theorem Reports.sends_a {index : Nat} {outcome : StepOutcome} {port value : Byte}
    (h : board.Reports outcomes) (hindex : outcomes[index]? = some outcome)
    (houtput : outcome.output? = some (port, value)) :
    value = (board.afterSteps index).cpu.registers.a := by
  have hresult := h index outcome hindex
  rw [result_step, Cpu.step_eq] at hresult
  obtain ⟨after, hcore⟩ := Cpu.result_transact_eq_ok_iff.mp hresult
  exact Core.eq_a_of_output?_step hcore houtput

/-- Steps that succeed leave the ports as they were, but for what the outcomes report
as sent, each with the A of its moment and written once and in order. The processor
goes through the same states, with the same outcomes, as one by itself that steps
and gets an answer in A wherever it asks for a port; one that never asks for any is
as if there were none. The input latches stay, whatever the program does. -/
theorem ports_are_a_log :
    (∀ (board : Board) (outcomes : List StepOutcome), board.Reports outcomes →
      (∀ count ≤ outcomes.length,
        (board.afterSteps count).ports =
          board.ports.writeAll ((outcomes.take count).filterMap StepOutcome.output?) ∧
        (board.unplugged.afterSteps board.ports count).sent =
          (outcomes.take count).filterMap StepOutcome.output? ∧
        (board.afterSteps count).cpu = (board.unplugged.afterSteps board.ports count).cpu) ∧
      (∀ index outcome, outcomes[index]? = some outcome →
        (board.unplugged.afterSteps board.ports index).cpu.step.result = .ok outcome ∧
        ∀ port value, outcome.output? = some (port, value) →
          value = (board.afterSteps index).cpu.registers.a) ∧
      ((∀ outcome ∈ outcomes, outcome.input? = none) →
        ∀ count ≤ outcomes.length, (board.afterSteps count).cpu = board.cpu.afterSteps count)) ∧
    ∀ (board : Board) (count : Nat),
      (board.afterSteps count).ports.in1 = board.ports.in1 ∧
      (board.afterSteps count).ports.in2 = board.ports.in2 := by
  constructor
  · intro board outcomes h
    refine ⟨?_, ?_, ?_⟩
    · intro count hcount
      have hsent := h.sent_afterSteps hcount
      rw [afterSteps_eq_onBoard, ← hsent]
      exact ⟨rfl, rfl, rfl⟩
    · intro index outcome hindex
      exact ⟨h.cpu_step hindex, fun port value houtput => h.sends_a hindex houtput⟩
    · intro hsilent count hcount
      rw [afterSteps_eq_onBoard]
      exact h.cpu_afterSteps hsilent hcount
  · intro board count
    rw [afterSteps_eq_onBoard]
    exact Ports.latches_writeAll _ _

/-- A board with a program that has a byte moved by three bits: MVI A,3; OUT 2; OUT 4;
IN 3. -/
def shifting : Board where
  cpu.memory.cells := some #[0x3E, 0x03, 0xD3, 0x02, 0xD3, 0x04, 0xDB, 0x03]
  ports := .ofLatches 0 0
  halfFrame := 1

/-- The answer to IN depends on both bytes sent before it. -/
theorem ports_are_a_log_of_shifting :
    (shifting.afterSteps 4).ports = shifting.ports.writeAll [(2, 3), (4, 3)] ∧
    (shifting.afterSteps 4).cpu = (shifting.unplugged.afterSteps shifting.ports 4).cpu ∧
    (shifting.afterSteps 4).cpu.registers.a = 0x18 ∧
    (shifting.afterSteps 3).cpu = shifting.cpu.afterSteps 3 := by
  have hreports : shifting.Reports [.executed 0x3E 2 none, .executed 0xD3 2 (some (.output 2 3)),
      .executed 0xD3 2 (some (.output 4 3)), .executed 0xDB 2 (some (.input 3))] := by
    intro index outcome hindex
    match index with
    | 0 | 1 | 2 | 3 =>
      cases hindex
      rfl
    | past + 4 => cases hindex
  have hsilent : shifting.Reports [.executed 0x3E 2 none,
      .executed 0xD3 2 (some (.output 2 3)), .executed 0xD3 2 (some (.output 4 3))] := by
    intro index outcome hindex
    apply hreports
    match index with
    | 0 | 1 | 2 => exact hindex
    | past + 3 => cases hindex
  obtain ⟨hports, _, hcpu⟩ := (ports_are_a_log.1 shifting _ hreports).1 4 (by decide)
  refine ⟨hports, hcpu, rfl, ?_⟩
  exact (ports_are_a_log.1 shifting _ hsilent).2.2 (by simp [StepOutcome.input?]) 3 (by decide)

end Board

end Arcade8080
