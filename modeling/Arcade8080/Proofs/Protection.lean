import Arcade8080.Cpu.Call
import Arcade8080.Proofs.Schedule

/-!
Memory outside the window is read-only to everything but the loaders. No
instruction is looked at for this: a store reaches memory in one way only, so
the property holds of every program on the bus, and from there of every
operation of the processor, of every sequence of them and of whole runs.
-/

namespace Arcade8080

/-- What stores can make of a memory: the same amount of it behind the same
window, and the same bytes wherever the window is closed. -/
structure Memory.Confined (before after : Memory) : Prop where
  isAllocated : after.isAllocated = before.isAllocated
  size : after.size = before.size
  window : after.window = before.window
  byte? : ∀ addr, before.window.contains addr = false → after.byte? addr = before.byte? addr

namespace Memory.Confined

theorem refl (memory : Memory) : memory.Confined memory := ⟨rfl, rfl, rfl, fun _ _ => rfl⟩

theorem trans {before middle after : Memory} (first : before.Confined middle)
    (second : middle.Confined after) : before.Confined after where
  isAllocated := second.isAllocated.trans first.isAllocated
  size := second.size.trans first.size
  window := second.window.trans first.window
  byte? := by
    intro addr hclosed
    have hstill : middle.window.contains addr = false := by
      rw [first.window]
      exact hclosed
    exact (second.byte? addr hstill).trans (first.byte? addr hclosed)

theorem write (memory : Memory) (addr : Nat) (value : Byte) :
    memory.Confined (memory.write addr value).state where
  isAllocated := isAllocated_write memory addr value
  size := size_write memory addr value
  window := window_write memory addr value
  byte? := by
    intro other hclosed
    rw [byte?_write, if_neg]
    rintro ⟨rfl, _, hopen⟩
    rw [hclosed] at hopen
    cases hopen

end Memory.Confined

theorem Bus.confined_run {α : Type} (program : Bus α) (memory : Memory) :
    memory.Confined (program.run memory).state := by
  induction program generalizing memory with
  | done value => exact .refl memory
  | read addr next ih =>
    simp only [run]
    cases memory.read addr.toNat with
    | ok byte => exact ih byte memory
    | error fault => exact .refl memory
  | write addr value next ih =>
    have hstore := Memory.Confined.write memory addr.toNat value
    simp only [run]
    cases hresult : (memory.write addr.toNat value).result with
    | ok =>
      rw [Attempt.state_andThen_of_ok hresult]
      exact hstore.trans (ih _)
    | error fault =>
      rw [Attempt.state_andThen_of_error hresult]
      exact hstore
  | note record next ih => exact ih memory

namespace Cpu

theorem confined_transact {α : Type} (cpu : Cpu) (program : Core → Bus (α × Core)) :
    cpu.memory.Confined (cpu.transact program).state.memory := by
  rw [memory_transact]
  exact Bus.confined_run _ _

theorem confined_step (cpu : Cpu) : cpu.memory.Confined cpu.step.state.memory := by
  rw [step_eq]
  exact confined_transact { cpu with pending := none } _

theorem confined_after (cpu : Cpu) (call : Call) :
    cpu.memory.Confined (cpu.after call).memory := by
  rw [after_eq]
  cases call with
  | step => exact confined_transact { cpu with pending := none } _
  | interrupt | reset => exact .refl _
  | execute | push | pop | writeAtHl | writeByte => exact confined_transact cpu _

theorem confined_afterAll (cpu : Cpu) (calls : List Call) :
    cpu.memory.Confined (cpu.afterAll calls).memory := by
  induction calls generalizing cpu with
  | nil => exact .refl _
  | cons call rest ih =>
    rw [afterAll_cons]
    exact (confined_after cpu call).trans (ih (cpu.after call))

end Cpu

namespace Board

theorem confined_tick {board after : Board} {next : Tick} (h : board.tick next = .ok after) :
    board.cpu.memory.Confined after.cpu.memory := by
  cases next with
  | request value =>
    cases h
    exact .refl _
  | step =>
    obtain ⟨outcome, _, rfl⟩ := tick_step_eq_ok_iff.mp h
    rw [memory_step]
    exact board.cpu.confined_step

theorem confined_play {board after : Board} {ticks : List Tick}
    (h : board.play ticks = .ok after) : board.cpu.memory.Confined after.cpu.memory :=
  invariant_play (fun reached => board.cpu.memory.Confined reached.cpu.memory)
    (fun hsofar hnext => hsofar.trans (confined_tick hnext)) (.refl _) h

end Board

namespace Emulation

/-- Whatever calls reach a processor, in whatever order and with whatever
success, memory keeps its size, its window and every byte outside the window.
So a run of an image that gets to its end leaves the image as it was everywhere
but in the RAM of the board, with zeros after it. -/
theorem rom_is_protected :
    (∀ (cpu : Cpu) (calls : List Cpu.Call),
      cpu.memory.Confined (cpu.afterAll calls).memory) ∧
    ∀ (config : Config) (rom : Array Byte) (log : Log) (board : Board),
      outcome? config rom log = some (.ok board) →
        board.cpu.memory.isAllocated = true ∧
        board.cpu.memory.size = max rom.size config.memorySize.toNat ∧
        ∀ addr, addr < max rom.size config.memorySize.toNat →
          ¬ (0x2000 ≤ addr ∧ addr < 0x4000) →
            board.cpu.memory.byte? addr = some (rom[addr]?.getD 0) := by
  refine ⟨Cpu.confined_afterAll, ?_⟩
  intro config rom log board hrun
  obtain ⟨start, records, hstart, hplay⟩ := outcome?_eq_ok_iff.mp hrun
  have hmade := made_coldStart hstart
  have hconfined := Board.confined_play hplay
  refine ⟨hconfined.isAllocated.trans hmade.isAllocated, hconfined.size.trans hmade.size, ?_⟩
  intro addr hsize houtside
  have hclosed : start.cpu.memory.window.contains addr = false := by
    rw [hmade.window, Bool.eq_false_iff]
    intro hopen
    exact houtside ((Window.contains_iff _ _).mp hopen)
  rw [hconfined.byte? addr hclosed]
  exact hmade.byte? addr hsize

/-- MVI A,77 and STA 0002: the program runs, and its store into itself does not
take effect. -/
theorem rom_is_protected_from_its_program :
    ∃ board, outcome? { frames := 1, halfFrame := 2, memorySize := 8 }
        #[0x3E, 0x77, 0x32, 0x02, 0x00] {} = some (.ok board) ∧
      board.cpu.registers.a = 0x77 ∧ board.cpu.memory.byte? 2 = some 0x32 := by
  refine ⟨_, rfl, rfl, ?_⟩
  exact (rom_is_protected.2 { frames := 1, halfFrame := 2, memorySize := 8 }
    #[0x3E, 0x77, 0x32, 0x02, 0x00] {} _ rfl).2.2 2 (by decide) (by decide)

end Emulation

end Arcade8080
