import Arcade8080.Board.Call
import Arcade8080.Proofs.MemoryHistory
import Arcade8080.Proofs.Protection

/-!
Loading an image starts a board anew. Of all that a board has been through, the window
and what the processor was configured with are what loading relies on, and no call
changes those but the one that sets a window. So two boards that were made with the
same amount of memory cannot be told apart once the same image is loaded into both,
but by their ports and by the length of their frames.
-/

namespace Arcade8080

namespace Cpu

/-- A processor as loading an image leaves it: all is zero but memory, which begins with
the image. -/
structure Restarted (cpu : Cpu) (image : Array Byte) (memorySize : Size) : Prop where
  core : cpu.toCore =
    { registers := { a := 0, b := 0, c := 0, d := 0, e := 0, h := 0, l := 0 }
      flags := { z := false, s := false, p := false, cy := false, ac := false }
      pc := 0
      sp := 0
      interruptsEnabled := false }
  pending : cpu.pending = none
  isAllocated : cpu.memory.isAllocated = true
  size : cpu.memory.size = max image.size memorySize.toNat
  byte? : ∀ addr < max image.size memorySize.toNat,
    cpu.memory.byte? addr = some (image[addr]?.getD 0)
  window : cpu.memory.window = ⟨0x2000, 0x4000⟩
  config : cpu.config = { window := ⟨0x2000, 0x4000⟩, minimumSize := memorySize }

/-- That says all there is to say about a processor. -/
theorem Restarted.unique {first second : Cpu} {image : Array Byte} {memorySize : Size}
    (hfirst : first.Restarted image memorySize) (hsecond : second.Restarted image memorySize) :
    second = first := by
  have hcore : second.toCore = first.toCore := hsecond.core.trans hfirst.core.symm
  have hpending : second.pending = first.pending := hsecond.pending.trans hfirst.pending.symm
  have hconfig : second.config = first.config := hsecond.config.trans hfirst.config.symm
  have hmemory : second.memory = first.memory := by
    apply Memory.eq_of_byte?
    · rw [hfirst.isAllocated, hsecond.isAllocated]
    · rw [hfirst.window, hsecond.window]
    · intro addr
      by_cases haddr : addr < max image.size memorySize.toNat
      · rw [hfirst.byte? addr haddr, hsecond.byte? addr haddr]
      · have hpast : first.memory.size ≤ addr ∧ second.memory.size ≤ addr := by
          rw [hfirst.size, hsecond.size]
          omega
        rw [Memory.byte?_eq_none_iff.mpr hpast.1, Memory.byte?_eq_none_iff.mpr hpast.2]
  obtain ⟨core, pending, memory, config⟩ := first
  obtain ⟨others, other, otherMemory, otherConfig⟩ := second
  cases hcore
  cases hpending
  cases hconfig
  cases hmemory
  rfl

theorem config_after (cpu : Cpu) (call : Call) : (cpu.after call).config = cpu.config := by
  rw [after_eq]
  cases call with
  | interrupt | reset => rfl
  | step | execute | push | pop | writeAtHl | writeByte => exact config_transact _ _

theorem config_act (cpu : Cpu) (action : Action) : (cpu.act action).config = cpu.config := by
  cases action with
  | call call => exact config_after cpu call
  | loadImage image =>
    simp only [act, loadImage]
    cases cpu.memory.loadImage image cpu.config.minimumSize.toNat <;> rfl
  | memory | assign | assignFlags => rfl

theorem window_act {cpu : Cpu} {action : Action} (h : action.window? = none) :
    (cpu.act action).memory.window = cpu.memory.window := by
  cases action with
  | call call => exact (confined_after cpu call).window
  | memory call =>
    have hnone : call.window? = none := h
    refine (Memory.window_after cpu.memory call).trans ?_
    rw [hnone, Option.getD_none]
  | loadImage image =>
    simp only [act, loadImage]
    cases himage : cpu.memory.loadImage image cpu.config.minimumSize.toNat with
    | none => rfl
    | some loaded => exact (Memory.made_of_loadImage himage).window
  | assign | assignFlags => rfl

end Cpu

namespace Board

/-- What loading an image relies on: how the processor was configured, and that memory is
still behind the window that it was configured with. -/
structure Configured (board : Board) (memorySize : Size) : Prop where
  config : board.cpu.config = { window := .arcade, minimumSize := memorySize }
  window : board.cpu.memory.window = .arcade

variable {board loaded : Board} {memorySize : Size} {image : Array Byte} {records : List Record}

theorem load_eq_none_iff :
    board.load image = none ↔
      Memory.limit < max image.size board.cpu.config.minimumSize.toNat := by
  simp [load, Cpu.loadImage, Memory.loadImage_eq_none_iff]

/-- Loading leaves nothing of the processor that was there but its configuration and the
window of its memory. -/
theorem Configured.restarted_of_load (h : board.Configured memorySize)
    (hload : board.load image = some (loaded, records)) :
    loaded.cpu.Restarted image memorySize ∧ loaded.ports = board.ports ∧
      loaded.halfFrame = board.halfFrame ∧
      records = [.imageLoaded image.size (max image.size memorySize.toNat)] := by
  simp only [load, Cpu.loadImage, Option.map_map, Option.map_eq_some_iff,
    Function.comp_apply, Prod.mk.injEq] at hload
  obtain ⟨memory, hmemory, rfl, rfl⟩ := hload
  have hmade := Memory.made_of_loadImage hmemory
  rw [h.config] at hmade
  refine ⟨⟨rfl, rfl, hmade.isAllocated, hmade.size, hmade.byte?, ?_, h.config⟩, rfl, rfl, ?_⟩
  · exact hmade.window.trans h.window
  · rw [hmade.size]

theorem Configured.afterTick (h : board.Configured memorySize) (next : Tick) :
    (board.afterTick next).Configured memorySize := by
  cases next with
  | request value => exact ⟨h.config, h.window⟩
  | step =>
    constructor
    · exact (config_step board).trans h.config
    · refine Eq.trans ?_ h.window
      rw [Board.afterTick, memory_step]
      exact board.cpu.confined_step.window

theorem Configured.frame (h : board.Configured memorySize) (log : Log) :
    (board.frame log).board.Configured memorySize := by
  rw [board_frame]
  apply invariant_leave (fun reached => reached.Configured memorySize) (fun _ => True)
  · exact fun hreached _ => hreached.afterTick _
  · exact h
  · exact fun _ _ => trivial

theorem Configured.after {call : Call} (h : board.Configured memorySize)
    (hcall : call.window? = none) : (board.after call).Configured memorySize := by
  cases call with
  | step => exact h.afterTick .step
  | frame => exact h.frame {}
  | load image =>
    simp only [Board.after]
    rcases hload : board.load image with _ | ⟨loaded, records⟩
    · exact h
    · obtain ⟨hrestarted, _⟩ := h.restarted_of_load hload
      exact ⟨hrestarted.config, hrestarted.window⟩
  | act action =>
    constructor
    · exact (Cpu.config_act _ _).trans h.config
    · exact (Cpu.window_act hcall).trans h.window
  | assignPorts ports => exact ⟨h.config, h.window⟩

theorem Configured.afterAll {calls : List Call} (h : board.Configured memorySize)
    (hcalls : ∀ call ∈ calls, call.window? = none) :
    (board.afterAll calls).Configured memorySize := by
  induction calls generalizing board with
  | nil => exact h
  | cons call rest ih =>
    obtain ⟨hcall, hrest⟩ := List.forall_mem_cons.mp hcalls
    exact ih (h.after hcall) hrest

/-- A board that was made with some amount of memory, and has since been through calls
that left its window alone. -/
def Descends (board : Board) (memorySize : Size) : Prop :=
  ∃ ports halfFrame start calls, ofMemorySize memorySize ports halfFrame = some start ∧
    (∀ call ∈ calls, Call.window? call = none) ∧ board = start.afterAll calls

theorem Descends.configured (h : board.Descends memorySize) : board.Configured memorySize := by
  obtain ⟨ports, halfFrame, start, calls, hstart, hcalls, rfl⟩ := h
  simp only [ofMemorySize, Cpu.allocate, Option.map_map, Option.map_eq_some_iff] at hstart
  obtain ⟨memory, hmemory, rfl⟩ := hstart
  exact Configured.afterAll ⟨rfl, (Memory.made_of_allocate hmemory).window⟩ hcalls

/-- Memory of that size could be made once, so only the image can be too large. -/
theorem Descends.load_eq_none_iff (h : board.Descends memorySize) :
    board.load image = none ↔ Memory.limit < image.size := by
  have hconfig := h.configured.config
  obtain ⟨ports, halfFrame, start, calls, hstart, hcalls, rfl⟩ := h
  simp only [ofMemorySize, Cpu.allocate, Option.map_map, Option.map_eq_some_iff] at hstart
  obtain ⟨memory, hmemory, _⟩ := hstart
  have hlimit := Memory.le_limit_of_allocate hmemory
  rw [Board.load_eq_none_iff, hconfig]
  dsimp only
  omega

/-- Whatever two boards with the same amount of memory have been through, once an image is
loaded into both their processors are the same, with nothing left of what there was. The
ports are as they were, and where they are the same on both boards, and the frames as
long, whatever is asked of the boards from then on goes the same way. Only an image that
no memory can hold is not loaded, into either of them. -/
theorem restart_leaves_no_trace {first second : Board} {memorySize : Size}
    (hfirst : first.Descends memorySize) (hsecond : second.Descends memorySize)
    (image : Array Byte) :
    (first.load image = none ↔ Memory.limit < image.size) ∧
    (second.load image = none ↔ Memory.limit < image.size) ∧
    ∀ loaded records, first.load image = some (loaded, records) →
      loaded.cpu.Restarted image memorySize ∧ loaded.ports = first.ports ∧
      ∃ restarted, second.load image = some (restarted, records) ∧
        restarted.cpu = loaded.cpu ∧
        (second.ports = first.ports → second.halfFrame = first.halfFrame → ∀ calls,
          restarted.replies calls = loaded.replies calls ∧
          restarted.afterAll calls = loaded.afterAll calls) := by
  refine ⟨hfirst.load_eq_none_iff, hsecond.load_eq_none_iff, ?_⟩
  intro loaded records hload
  obtain ⟨hcpu, hports, hhalf, rfl⟩ := hfirst.configured.restarted_of_load hload
  refine ⟨hcpu, hports, ?_⟩
  rcases hother : second.load image with _ | ⟨restarted, others⟩
  · rw [hsecond.load_eq_none_iff, ← hfirst.load_eq_none_iff, hload] at hother
    cases hother
  · obtain ⟨hsame, hotherPorts, hotherHalf, rfl⟩ :=
      hsecond.configured.restarted_of_load hother
    refine ⟨restarted, rfl, hcpu.unique hsame, ?_⟩
    intro hportsSame hhalfSame calls
    have hboard : restarted = loaded := by
      obtain ⟨cpu, ports, halfFrame⟩ := loaded
      obtain ⟨other, otherPorts, otherHalf⟩ := restarted
      cases hcpu.unique hsame
      cases hotherPorts.trans (hportsSame.trans hports.symm)
      cases hotherHalf.trans (hhalfSame.trans hhalf.symm)
      rfl
    rw [hboard]
    exact ⟨rfl, rfl⟩

/-- EI and MVI A,07 and OUT 3 run, memory shrinks to four bytes, a frame fails past the end
of them, and a request comes in. -/
def eventful : List Call :=
  [.load #[0xFB, 0x3E, 0x07, 0xD3, 0x03], .step, .step, .step,
    .act (.memory (.allocate 4)), .frame, .act (.call (.interrupt 3))]

/-- After these calls A, the counter, the interrupt enable and a request are all set. Once
MOV B,A is loaded nothing is left of that, and the next frame comes to the same as on a
board that has been through nothing. -/
theorem restart_leaves_no_trace_of_eventful :
    ∃ start second loaded restarted records,
      ofMemorySize 0x10 (.ofLatches 0 0) 1 = some start ∧
      ofMemorySize 0x10 { Ports.ofLatches 0 0 with out3 := 7 } 1 = some second ∧
      let first := start.afterAll eventful
      first.cpu.registers.a = 7 ∧ first.cpu.pc = 5 ∧ first.cpu.interruptsEnabled = true ∧
        first.cpu.pending = some 3 ∧ first.cpu.memory.size = 4 ∧
        first.load #[0x47] = some (loaded, records) ∧
        second.load #[0x47] = some (restarted, records) ∧
        restarted.replies [.frame] = loaded.replies [.frame] := by
  obtain ⟨start, hstart⟩ :
      ∃ start, ofMemorySize 0x10 (.ofLatches 0 0) 1 = some start := ⟨_, rfl⟩
  obtain ⟨second, hsecond⟩ :
      ∃ second, ofMemorySize 0x10 { Ports.ofLatches 0 0 with out3 := 7 } 1 = some second :=
    ⟨_, rfl⟩
  have hfirst : (start.afterAll eventful).Descends 0x10 :=
    ⟨.ofLatches 0 0, 1, start, eventful, hstart, by decide, rfl⟩
  have hother : second.Descends 0x10 :=
    ⟨{ Ports.ofLatches 0 0 with out3 := 7 }, 1, second, [], hsecond, by decide, rfl⟩
  obtain ⟨_, _, htrace⟩ := restart_leaves_no_trace hfirst hother #[0x47]
  cases hstart
  cases hsecond
  obtain ⟨_, _, restarted, hrestarted, _, hreplies⟩ := htrace _ _ rfl
  exact ⟨_, _, _, restarted, _, rfl, rfl, rfl, rfl, rfl, rfl, rfl, rfl, hrestarted,
    (hreplies rfl rfl [.frame]).1⟩

end Board

end Arcade8080
