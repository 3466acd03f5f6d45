import Arcade8080.Proofs.Protection

/-!
What the amount of memory means to a run. A program that finds all of its bytes
in some memory does the same in a larger one with zeros at its end, and never
looks at those. Addresses are words, so 64 KiB are enough for every program. What
cannot be made is no memory at all, and a run that asks for it has no end.
-/

namespace Arcade8080

/-- The larger memory is the smaller one with zeros after it. -/
structure Memory.Padded (smaller larger : Memory) : Prop where
  window : larger.window = smaller.window
  size : smaller.size ≤ larger.size
  byte? : ∀ addr, addr < smaller.size → larger.byte? addr = smaller.byte? addr
  zeros : ∀ addr, smaller.size ≤ addr → addr < larger.size → larger.byte? addr = some 0

namespace Memory.Padded

variable {smaller larger : Memory} {addr : Nat} {value : Byte}

theorem read (h : smaller.Padded larger) (hread : smaller.read addr = .ok value) :
    larger.read addr = .ok value := by
  have hsize := lt_size_of_read hread
  rw [read_eq_ok_iff] at hread ⊢
  rw [h.byte? addr hsize]
  exact hread

/-- A store that has a place in the smaller memory misses the zeros. -/
theorem write (h : smaller.Padded larger) (hsize : addr < smaller.size) :
    (smaller.write addr value).state.Padded (larger.write addr value).state where
  window := by
    rw [window_write, window_write]
    exact h.window
  size := by
    rw [size_write, size_write]
    exact h.size
  byte? := by
    intro other hother
    rw [size_write] at hother
    have hlarger : addr < larger.size := Nat.lt_of_lt_of_le hsize h.size
    rw [byte?_write, byte?_write, h.window, h.byte? other hother]
    simp only [hsize, hlarger]
  zeros := by
    intro other hfrom hto
    rw [size_write] at hfrom hto
    have hne : other ≠ addr := by omega
    rw [byte?_write, if_neg fun hchanged => hne hchanged.1]
    exact h.zeros other hfrom hto

end Memory.Padded

namespace Bus

variable {α : Type}

theorem padded_run (program : Bus α) {smaller larger : Memory} {value : α}
    (h : smaller.Padded larger) (hrun : (program.run smaller).result = .ok value) :
    (program.run larger).result = .ok value ∧
      (program.run smaller).state.Padded (program.run larger).state := by
  induction program generalizing smaller larger with
  | done final => exact ⟨hrun, h⟩
  | read addr next ih =>
    simp only [run] at hrun ⊢
    cases hread : smaller.read addr.toNat with
    | ok byte =>
      rw [hread] at hrun
      rw [h.read hread]
      exact ih byte h hrun
    | error fault =>
      rw [hread] at hrun
      cases hrun
  | write addr byte next ih =>
    simp only [run] at hrun ⊢
    obtain ⟨_, hstore, hrest⟩ := Attempt.result_andThen_eq_ok_iff.mp hrun
    have hsize := Memory.result_write_eq_ok_iff.mp hstore
    have hother : (larger.write addr.toNat byte).result = .ok () :=
      Memory.result_write_eq_ok_iff.mpr (Nat.lt_of_lt_of_le hsize h.size)
    obtain ⟨hresult, hstate⟩ := ih (h.write hsize) hrest
    rw [Attempt.state_andThen_of_ok hstore, Attempt.state_andThen_of_ok hother]
    exact ⟨Attempt.result_andThen_eq_ok_iff.mpr ⟨(), hother, hresult⟩, hstate⟩
  | note record next ih => exact ih h hrun

/-- In 64 KiB every address has its byte, so there is nothing to fault on. -/
theorem exists_result_run (program : Bus α) {memory : Memory} (h : 0x10000 ≤ memory.size) :
    ∃ value, (program.run memory).result = .ok value := by
  have hplace (addr : Word) : addr.toNat < memory.size := Nat.lt_of_lt_of_le addr.isLt h
  induction program generalizing memory with
  | done value => exact ⟨value, rfl⟩
  | read addr next ih =>
    simp only [run]
    cases hread : memory.read addr.toNat with
    | ok byte => exact ih byte h hplace
    | error fault =>
      have hpast := (Memory.read_eq_error_iff.mp hread).1
      exact absurd (hplace addr) (Nat.not_lt.mpr hpast)
  | write addr byte next ih =>
    have hstore : (memory.write addr.toNat byte).result = .ok () :=
      Memory.result_write_eq_ok_iff.mpr (hplace addr)
    have hsize : (memory.write addr.toNat byte).state.size = memory.size :=
      Memory.size_write _ _ _
    rw [← hsize] at h
    obtain ⟨value, hrest⟩ := ih h fun other => hsize.symm ▸ hplace other
    exact ⟨value, Attempt.result_andThen_eq_ok_iff.mpr ⟨(), hstore, hrest⟩⟩
  | note record next ih => exact ih h hplace

end Bus

/-- Two processors that differ in the end of memory only. Their configurations
may differ as well, for no operation but the loader reads them. -/
structure Cpu.Padded (smaller larger : Cpu) : Prop where
  core : larger.toCore = smaller.toCore
  pending : larger.pending = smaller.pending
  memory : smaller.memory.Padded larger.memory

namespace Cpu

variable {smaller larger : Cpu}

theorem padded_transact {α : Type} {program : Core → Bus (α × Core)} {value : α}
    (h : smaller.Padded larger) (hresult : (smaller.transact program).result = .ok value) :
    (larger.transact program).result = .ok value ∧
      (smaller.transact program).state.Padded (larger.transact program).state := by
  obtain ⟨after, hrun⟩ := result_transact_eq_ok_iff.mp hresult
  obtain ⟨hother, hmemory⟩ := Bus.padded_run _ h.memory hrun
  rw [← h.core] at hother hmemory
  refine ⟨result_transact_eq_ok_iff.mpr ⟨after, hother⟩, ?_, ?_, ?_⟩
  · rw [core_transact_of_ok hrun, core_transact_of_ok hother]
  · rw [pending_transact, pending_transact]
    exact h.pending
  · rw [memory_transact, memory_transact, ← h.core]
    exact hmemory

theorem padded_step {outcome : StepOutcome} (h : smaller.Padded larger)
    (hresult : smaller.step.result = .ok outcome) :
    larger.step.result = .ok outcome ∧ smaller.step.state.Padded larger.step.state := by
  have hused : Padded { smaller with pending := none } { larger with pending := none } :=
    ⟨h.core, rfl, h.memory⟩
  rw [step_eq] at hresult ⊢
  rw [step_eq, h.pending]
  exact padded_transact hused hresult

theorem padded_interrupt (h : smaller.Padded larger) (value : Byte) :
    (smaller.interrupt value).1.Padded (larger.interrupt value).1 :=
  ⟨h.core, rfl, h.memory⟩

theorem exists_result_step {cpu : Cpu} (h : 0x10000 ≤ cpu.memory.size) :
    ∃ outcome, cpu.step.result = .ok outcome := by
  obtain ⟨⟨outcome, after⟩, hrun⟩ := Bus.exists_result_run (cpu.toCore.step cpu.pending) h
  rw [step_eq]
  exact ⟨outcome, result_transact_eq_ok_iff.mpr ⟨after, hrun⟩⟩

end Cpu

structure Board.Padded (smaller larger : Board) : Prop where
  cpu : smaller.cpu.Padded larger.cpu
  ports : larger.ports = smaller.ports
  halfFrame : larger.halfFrame = smaller.halfFrame

namespace Board

variable {smaller larger after : Board}

theorem padded_service (h : smaller.Padded larger) (outcome : StepOutcome) :
    (smaller.service outcome).Padded (larger.service outcome) := by
  obtain ⟨⟨hcore, hpending, hmemory⟩, hports, hhalf⟩ := h
  cases outcome with
  | interrupted number => exact ⟨⟨hcore, hpending, hmemory⟩, hports, hhalf⟩
  | executed opcode length port =>
    rcases port with _ | ⟨port⟩ | ⟨port, value⟩
    · exact ⟨⟨hcore, hpending, hmemory⟩, hports, hhalf⟩
    · simp only [service, hports]
      refine ⟨⟨?_, hpending, hmemory⟩, rfl, hhalf⟩
      simp only [hcore]
    · simp only [service, hports]
      exact ⟨⟨hcore, hpending, hmemory⟩, rfl, hhalf⟩

theorem padded_tick {next : Tick} (h : smaller.Padded larger)
    (hnext : smaller.tick next = .ok after) :
    ∃ finish, larger.tick next = .ok finish ∧ after.Padded finish := by
  cases next with
  | request value =>
    cases hnext
    exact ⟨_, rfl, Cpu.padded_interrupt h.cpu value, h.ports, h.halfFrame⟩
  | step =>
    obtain ⟨outcome, hresult, rfl⟩ := tick_step_eq_ok_iff.mp hnext
    obtain ⟨hother, hcpu⟩ := Cpu.padded_step h.cpu hresult
    have hstepped : Padded { smaller with cpu := smaller.cpu.step.state }
        { larger with cpu := larger.cpu.step.state } := ⟨hcpu, h.ports, h.halfFrame⟩
    refine ⟨_, tick_step_eq_ok_iff.mpr ⟨outcome, hother, rfl⟩, ?_⟩
    rw [state_step_of_ok hresult, state_step_of_ok hother]
    exact padded_service hstepped outcome

theorem padded_play {ticks : List Tick} (h : smaller.Padded larger)
    (hplay : smaller.play ticks = .ok after) :
    ∃ finish, larger.play ticks = .ok finish ∧ after.Padded finish :=
  simulation_play Padded padded_tick h hplay

theorem exists_tick {board : Board} (h : 0x10000 ≤ board.cpu.memory.size) (next : Tick) :
    ∃ after, board.tick next = .ok after ∧ 0x10000 ≤ after.cpu.memory.size := by
  have hticks : ∃ after, board.tick next = .ok after := by
    cases next with
    | request value => exact ⟨_, rfl⟩
    | step =>
      obtain ⟨outcome, hresult⟩ := Cpu.exists_result_step h
      exact ⟨_, tick_step_eq_ok_iff.mpr ⟨outcome, hresult, rfl⟩⟩
  obtain ⟨after, hnext⟩ := hticks
  refine ⟨after, hnext, ?_⟩
  rw [(confined_tick hnext).size]
  exact h

theorem exists_play {board : Board} (h : 0x10000 ≤ board.cpu.memory.size) (ticks : List Tick) :
    ∃ after, board.play ticks = .ok after := by
  obtain ⟨after, hplay, _⟩ := progress_play (fun board => 0x10000 ≤ board.cpu.memory.size)
    (fun next hsize => exists_tick hsize next) h ticks
  exact ⟨after, hplay⟩

end Board

namespace Emulation

variable {config : Config} {rom : Array Byte} {larger : Size} {start grown : Board}
  {records others : List Record}

theorem padded_coldStart (h : config.memorySize ≤ larger)
    (hstart : coldStart config rom = some (start, records))
    (hgrown : coldStart { config with memorySize := larger } rom = some (grown, others)) :
    start.Padded grown := by
  have hmade := made_coldStart hstart
  have hmore := made_coldStart hgrown
  have hsizes : max rom.size config.memorySize.toNat ≤ max rom.size larger.toNat :=
    Nat.max_le.mpr ⟨Nat.le_max_left _ _, Nat.le_trans h (Nat.le_max_right _ _)⟩
  refine ⟨⟨?core, ?pending, ?window, ?size, ?bytes, ?zeros⟩, ?ports, ?halfFrame⟩
  case core | pending | ports | halfFrame =>
    rw [coldStart_eq_some hstart, coldStart_eq_some hgrown]
  case window => rw [hmade.window, hmore.window]
  case size =>
    rw [hmade.size, hmore.size]
    exact hsizes
  case bytes =>
    intro addr haddr
    rw [hmade.size] at haddr
    rw [hmade.byte? addr haddr]
    exact hmore.byte? addr (Nat.lt_of_lt_of_le haddr hsizes)
  case zeros =>
    intro addr hfrom hto
    rw [hmade.size] at hfrom
    rw [hmore.size] at hto
    have hpast : rom.size ≤ addr := Nat.le_trans (Nat.le_max_left _ _) hfrom
    rw [hmore.byte? addr hto, Array.getElem?_eq_none hpast]
    rfl

theorem exists_coldStart (h : max rom.size config.memorySize.toNat ≤ Memory.limit) :
    ∃ start records, coldStart config rom = some (start, records) := by
  rcases hstart : coldStart config rom with _ | ⟨start, records⟩
  · exact absurd (coldStart_eq_none_iff.mp hstart) (Nat.not_lt.mpr h)
  · exact ⟨start, records, rfl⟩

/-- How much memory a run is given decides whether it gets to its end, and
nothing else about it: with more memory it ends in the same way, and what was
added is still zero. With 64 KiB it always ends. All this is so as long as memory
of that size can be made; a run that is to have more does not come to anything. -/
theorem memory_size_only_decides_faults (config : Config) (rom : Array Byte) :
    (∀ (larger : Size) (log other : Log) (board : Board), config.memorySize ≤ larger →
      larger.toNat ≤ Memory.limit → outcome? config rom log = some (.ok board) →
        ∃ finish, outcome? { config with memorySize := larger } rom other = some (.ok finish) ∧
          board.Padded finish ∧
          board.cpu.memory.size = max rom.size config.memorySize.toNat ∧
          finish.cpu.memory.size = max rom.size larger.toNat) ∧
    (0x10000 ≤ max rom.size config.memorySize.toNat →
      max rom.size config.memorySize.toNat ≤ Memory.limit →
        ∀ log, ∃ board, outcome? config rom log = some (.ok board)) ∧
    (Memory.limit < max rom.size config.memorySize.toNat → ∀ log, run config rom log = none) := by
  refine ⟨?_, ?_, ?_⟩
  · intro larger log other board hsize hlimit hrun
    obtain ⟨start, records, hstart, hplay⟩ := outcome?_eq_ok_iff.mp hrun
    have hrom : rom.size ≤ Memory.limit := by
      have hsmall := start.cpu.memory.size_le_limit
      rw [(made_coldStart hstart).size] at hsmall
      exact Nat.le_trans (Nat.le_max_left _ _) hsmall
    obtain ⟨grown, others, hgrown⟩ : ∃ grown others,
        coldStart { config with memorySize := larger } rom = some (grown, others) :=
      exists_coldStart (Nat.max_le.mpr ⟨hrom, hlimit⟩)
    obtain ⟨finish, hfinish, hpadded⟩ :=
      Board.padded_play (padded_coldStart hsize hstart hgrown) hplay
    refine ⟨finish, outcome?_eq_ok_iff.mpr ⟨grown, others, hgrown, hfinish⟩, hpadded, ?_, ?_⟩
    · rw [(Board.confined_play hplay).size, (made_coldStart hstart).size]
    · rw [(Board.confined_play hfinish).size, (made_coldStart hgrown).size]
  · intro hsize hlimit log
    obtain ⟨start, records, hstart⟩ := exists_coldStart hlimit
    rw [← (made_coldStart hstart).size] at hsize
    obtain ⟨board, hplay⟩ := Board.exists_play hsize (frameSchedule config.halfFrame config.frames)
    exact ⟨board, outcome?_eq_ok_iff.mpr ⟨start, records, hstart, hplay⟩⟩
  · intro hlimit log
    rw [run, coldStart_eq_none_iff.mpr hlimit]
    rfl

/-- MVI A,77 and NOP run alike in 4 bytes and in 16. The PUSH PSW that comes next
stores at the end of all 64 KiB. -/
theorem memory_size_only_decides_faults_of_short_program :
    (∃ finish, outcome? { frames := 1, halfFrame := 1, memorySize := 16 }
        #[0x3E, 0x77, 0x00, 0xF5] {} = some (.ok finish) ∧
      finish.cpu.registers.a = 0x77 ∧ finish.cpu.memory.byte? 12 = some 0) ∧
    (∃ board, outcome? { frames := 1, halfFrame := 2, memorySize := 0x10000 }
      #[0x3E, 0x77, 0x00, 0xF5] {} = some (.ok board)) ∧
    run { frames := 1, memorySize := 0x8000000000000000 } #[0x3E, 0x77, 0x00, 0xF5] {} = none := by
  have hsmall := memory_size_only_decides_faults { frames := 1, halfFrame := 1, memorySize := 4 }
    #[0x3E, 0x77, 0x00, 0xF5]
  obtain ⟨finish, hrun, hpadded, hfrom, hto⟩ :=
    hsmall.1 16 {} {} _ (by decide) (by decide) rfl
  refine ⟨⟨finish, hrun, ?_, ?_⟩, ?_, ?_⟩
  · rw [hpadded.cpu.core]
    rfl
  · apply hpadded.cpu.memory.zeros 12
    · rw [hfrom]
      decide
    · rw [hto]
      decide
  · have hfull := memory_size_only_decides_faults
      { frames := 1, halfFrame := 2, memorySize := 0x10000 } #[0x3E, 0x77, 0x00, 0xF5]
    exact hfull.2.1 (by decide) (by decide) {}
  · have hpast := memory_size_only_decides_faults
      { frames := 1, memorySize := 0x8000000000000000 } #[0x3E, 0x77, 0x00, 0xF5]
    exact hpast.2.2 (by decide) {}

/-- A run of no frames that is given the default amount of memory succeeds. Given the
largest amount that there is a number for it does not, though that is more than 64 KiB. -/
theorem memory_size_beyond_limit_ends_runs :
    (∃ board, outcome? { frames := 0 } #[] {} = some (.ok board)) ∧
    ({} : Config).memorySize ≤ (0xFFFFFFFFFFFFFFFF : Size) ∧
    0x10000 ≤ max (#[] : Array Byte).size (0xFFFFFFFFFFFFFFFF : Size).toNat ∧
    ¬ ∃ board, outcome? { frames := 0, memorySize := 0xFFFFFFFFFFFFFFFF } #[] {} =
      some (.ok board) := by
  refine ⟨⟨_, rfl⟩, by decide, by decide, ?_⟩
  rintro ⟨board, hrun⟩
  cases hrun

end Emulation

end Arcade8080
