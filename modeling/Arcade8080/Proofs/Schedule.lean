import Arcade8080.Board.Lemmas
import Arcade8080.Emulation

/-!
A run is a list of steps and requests that the board goes through until one of
them fails. Frames fix that list in advance, so what one of its entries
preserves is preserved by whole runs, of any number of frames.
-/

namespace Arcade8080

namespace Board

/-- One thing that happens to a board in the course of a run. -/
inductive Tick where
  | step
  | request (value : Byte)

def tick (board : Board) : Tick → Except Fault Board
  | .step => board.step.result.map fun _ => board.step.state
  | .request value => .ok (board.interrupt value).1

/-- The board after all of the list, or the first fault. -/
def play (board : Board) : List Tick → Except Fault Board
  | [] => .ok board
  | next :: rest =>
    match board.tick next with
    | .ok after => after.play rest
    | .error fault => .error fault

def halfTicks (halfFrame : Nat) (request : Byte) : List Tick :=
  List.replicate halfFrame .step ++ [.request request]

def frameTicks (halfFrame : Nat) : List Tick := halfTicks halfFrame 1 ++ halfTicks halfFrame 2

/-- What a run has come to: its board, or the fault that ended it. -/
def Progress.outcome (progress : Progress) : Except Fault Board :=
  match progress.fault with
  | none => .ok progress.board
  | some fault => .error fault

theorem play_append (board : Board) (early late : List Tick) :
    board.play (early ++ late) = (board.play early).bind fun middle => middle.play late := by
  induction early generalizing board with
  | nil => rfl
  | cons next rest ih =>
    simp only [List.cons_append, play]
    cases board.tick next with
    | ok after => exact ih after
    | error fault => rfl

theorem tick_step_eq_ok_iff {board after : Board} :
    board.tick .step = .ok after ↔
      ∃ outcome, board.cpu.step.result = .ok outcome ∧ board.step.state = after := by
  simp only [tick, result_step]
  cases board.cpu.step.result <;> simp [Except.map]

theorem halfFrame_tick {board after : Board} {next : Tick} (h : board.tick next = .ok after) :
    after.halfFrame = board.halfFrame := by
  cases next with
  | request value =>
    cases h
    rfl
  | step =>
    obtain ⟨outcome, _, rfl⟩ := tick_step_eq_ok_iff.mp h
    exact halfFrame_step board

section Principles

variable {board after : Board} {ticks : List Tick}

/-- What each entry preserves holds at the end of a run that gets there. -/
theorem invariant_play (holds : Board → Prop)
    (keeps : ∀ {board after : Board} {next : Tick},
      holds board → board.tick next = .ok after → holds after)
    (start : holds board) (hplay : board.play ticks = .ok after) : holds after := by
  induction ticks generalizing board with
  | nil =>
    cases hplay
    exact start
  | cons next rest ih =>
    simp only [play] at hplay
    cases hnext : board.tick next with
    | error fault =>
      rw [hnext] at hplay
      cases hplay
    | ok middle =>
      rw [hnext] at hplay
      exact ih (keeps start hnext) hplay

/-- A run that gets to its end takes every related board along. -/
theorem simulation_play (related : Board → Board → Prop) {other : Board}
    (keeps : ∀ {board other after : Board} {next : Tick}, related board other →
      board.tick next = .ok after → ∃ finish, other.tick next = .ok finish ∧ related after finish)
    (start : related board other) (hplay : board.play ticks = .ok after) :
    ∃ finish, other.play ticks = .ok finish ∧ related after finish := by
  induction ticks generalizing board other with
  | nil =>
    cases hplay
    exact ⟨other, rfl, start⟩
  | cons next rest ih =>
    simp only [play] at hplay
    cases hnext : board.tick next with
    | error fault =>
      rw [hnext] at hplay
      cases hplay
    | ok middle =>
      rw [hnext] at hplay
      obtain ⟨between, hother, hbetween⟩ := keeps start hnext
      obtain ⟨finish, hrest, hend⟩ := ih hbetween hplay
      exact ⟨finish, by simp only [play, hother, hrest], hend⟩

/-- Where no entry can fail, neither can the run. -/
theorem progress_play (holds : Board → Prop)
    (keeps : ∀ {board : Board} (next : Tick),
      holds board → ∃ after, board.tick next = .ok after ∧ holds after)
    (start : holds board) (ticks : List Tick) :
    ∃ after, board.play ticks = .ok after ∧ holds after := by
  induction ticks generalizing board with
  | nil => exact ⟨board, rfl, start⟩
  | cons next rest ih =>
    obtain ⟨middle, hnext, hmiddle⟩ := keeps next start
    obtain ⟨after, hrest, hafter⟩ := ih hmiddle
    exact ⟨after, by simp only [play, hnext, hrest], hafter⟩

end Principles

theorem halfFrame_play {board after : Board} {ticks : List Tick}
    (h : board.play ticks = .ok after) : after.halfFrame = board.halfFrame :=
  invariant_play (fun reached => reached.halfFrame = board.halfFrame)
    (fun hsame hnext => (halfFrame_tick hnext).trans hsame) rfl h

theorem outcome_advance (board : Board) (log : Log) (count : Nat) :
    (board.advance log count).outcome = board.play (List.replicate count .step) := by
  induction count generalizing board log with
  | zero => rfl
  | succ count ih =>
    simp only [advance, List.replicate_succ, play, tick]
    rcases board.step with ⟨fault | outcome, after, records⟩
    · rfl
    · exact ih after (log.addAll records)

theorem outcome_half (board : Board) (log : Log) (request : Byte) :
    (board.half log request).outcome = board.play (halfTicks board.halfFrame request) := by
  rw [halfTicks, play_append, ← outcome_advance board log]
  simp only [half]
  rcases board.advance log board.halfFrame with ⟨after, log, _ | fault⟩ <;> rfl

/-- A frame is its list of ticks. Its second half asks for the number of steps
anew, and the first half has not changed it. -/
theorem outcome_frame (board : Board) (log : Log) :
    (board.frame log).outcome = board.play (frameTicks board.halfFrame) := by
  have hfirst := outcome_half board log 1
  rw [frameTicks, play_append, ← hfirst]
  simp only [frame]
  rcases hhalf : board.half log 1 with ⟨middle, between, _ | fault⟩
  · rw [hhalf] at hfirst
    have hsame : middle.halfFrame = board.halfFrame := halfFrame_play hfirst.symm
    simp only [Progress.outcome, Except.bind]
    rw [← hsame]
    exact outcome_half middle between 2
  · rfl

section Partway

variable {board after : Board} {ticks : List Tick}

/-- The board that a tick leaves, whether or not it succeeds. -/
def afterTick (board : Board) : Tick → Board
  | .step => board.step.state
  | .request value => (board.interrupt value).1

/-- What a tick reports where it is a step that succeeds. -/
def tickOutcome? (board : Board) : Tick → Option StepOutcome
  | .step => board.step.result.toOption
  | .request _ => none

/-- The board that a run leaves, whether or not it gets to its end. -/
def leave (board : Board) : List Tick → Board
  | [] => board
  | next :: rest =>
    match board.tick next with
    | .ok _ => (board.afterTick next).leave rest
    | .error _ => board.afterTick next

/-- What the steps of a run report, as far as it gets. -/
def outcomes (board : Board) : List Tick → List StepOutcome
  | [] => []
  | next :: rest =>
    match board.tick next with
    | .ok _ => (board.tickOutcome? next).toList ++ (board.afterTick next).outcomes rest
    | .error _ => []

theorem afterTick_of_ok {next : Tick} (h : board.tick next = .ok after) :
    board.afterTick next = after := by
  cases next with
  | request value =>
    cases h
    rfl
  | step =>
    obtain ⟨outcome, _, hafter⟩ := tick_step_eq_ok_iff.mp h
    exact hafter

theorem leave_append (board : Board) (early late : List Tick) :
    board.leave (early ++ late) =
      match board.play early with
      | .ok middle => middle.leave late
      | .error _ => board.leave early := by
  induction early generalizing board with
  | nil => rfl
  | cons next rest ih =>
    simp only [List.cons_append, leave, play]
    cases hnext : board.tick next with
    | ok middle =>
      rw [afterTick_of_ok hnext]
      exact ih middle
    | error fault => rfl

theorem board_advance (board : Board) (log : Log) (count : Nat) :
    (board.advance log count).board = board.leave (List.replicate count .step) := by
  induction count generalizing board log with
  | zero => rfl
  | succ count ih =>
    simp only [advance, List.replicate_succ, leave, tick, afterTick]
    rcases board.step with ⟨fault | outcome, stepped, records⟩
    · rfl
    · exact ih stepped (log.addAll records)

theorem board_half (board : Board) (log : Log) (request : Byte) :
    (board.half log request).board = board.leave (halfTicks board.halfFrame request) := by
  have hadvance := board_advance board log board.halfFrame
  rw [halfTicks, leave_append, ← outcome_advance board log]
  simp only [half]
  rcases hrun : board.advance log board.halfFrame with ⟨reached, between, _ | fault⟩
  · rfl
  · rw [hrun] at hadvance
    exact hadvance

/-- Also where a frame fails, the board is left where its ticks have got to. -/
theorem board_frame (board : Board) (log : Log) :
    (board.frame log).board = board.leave (frameTicks board.halfFrame) := by
  have hboard := board_half board log 1
  have houtcome := outcome_half board log 1
  rw [frameTicks, leave_append, ← houtcome]
  simp only [frame]
  rcases hhalf : board.half log 1 with ⟨middle, between, _ | fault⟩
  · rw [hhalf] at houtcome
    have hsame : middle.halfFrame = board.halfFrame := halfFrame_play houtcome.symm
    simp only [Progress.outcome]
    rw [← hsame]
    exact board_half middle between 2
  · rw [hhalf] at hboard
    exact hboard

/-- What each tick preserves, provided that it reports nothing but what is allowed, holds
of the board that a run leaves, at its end or on the way there. -/
theorem invariant_leave (holds : Board → Prop) (allowed : StepOutcome → Prop)
    (keeps : ∀ {board : Board} {next : Tick}, holds board →
      (∀ outcome ∈ board.tickOutcome? next, allowed outcome) → holds (board.afterTick next))
    (start : holds board) (hallowed : ∀ outcome ∈ board.outcomes ticks, allowed outcome) :
    holds (board.leave ticks) := by
  induction ticks generalizing board with
  | nil => exact start
  | cons next rest ih =>
    simp only [leave, outcomes] at hallowed ⊢
    cases hnext : board.tick next with
    | error fault =>
      refine keeps start fun outcome hmem => ?_
      cases next with
      | request value => cases hnext
      | step =>
        have hresult := Attempt.toOption_eq_some_iff.mp hmem
        rw [tick, hresult] at hnext
        cases hnext
    | ok middle =>
      rw [hnext] at hallowed
      apply ih
      · exact keeps start fun outcome hmem =>
          hallowed outcome (List.mem_append_left _ (Option.mem_toList.mpr hmem))
      · exact fun outcome hmem => hallowed outcome (List.mem_append_right _ hmem)

end Partway

end Board

namespace Emulation

def frameSchedule (halfFrame frames : Nat) : List Board.Tick :=
  (List.replicate frames (Board.frameTicks halfFrame)).flatten

theorem runFrames_eq_ok_iff {board after : Board} {log : Log} {number count : Nat} :
    (runFrames board log number count).1 = .ok after ↔
      board.play (frameSchedule board.halfFrame count) = .ok after := by
  induction count generalizing board log number with
  | zero => simp [runFrames, frameSchedule, Board.play]
  | succ count ih =>
    have hframe := Board.outcome_frame board log
    have hsplit : frameSchedule board.halfFrame (count + 1) =
        Board.frameTicks board.halfFrame ++ frameSchedule board.halfFrame count := by
      simp [frameSchedule, List.replicate_succ]
    rw [hsplit, Board.play_append, ← hframe]
    simp only [runFrames]
    rcases hrun : board.frame log with ⟨middle, between, _ | fault⟩
    · rw [hrun] at hframe
      have hsame : middle.halfFrame = board.halfFrame := Board.halfFrame_play hframe.symm
      rw [← hsame]
      exact ih
    · simp [Board.Progress.outcome, Except.bind]

/-- Some frames and then some more, which take up the count of frames. -/
theorem runFrames_add (board : Board) (log : Log) (number early late : Nat) :
    runFrames board log number (early + late) =
      match runFrames board log number early with
      | (.ok middle, log) => runFrames middle log (number + early) late
      | (.error error, log) => (.error error, log) := by
  induction early generalizing board log number with
  | zero => simp [runFrames]
  | succ early ih =>
    have hnumber : number + (early + 1) = number + 1 + early := by omega
    rw [Nat.succ_add, hnumber]
    simp only [runFrames]
    rcases board.frame log with ⟨middle, between, _ | fault⟩
    · exact ih middle between (number + 1)
    · rfl

section Run

variable {config : Config} {rom : Array Byte} {log : Log} {start after : Board}
  {records : List Record} {result : Except Error Board}

/-- The board on which a run begins is one after reset. Nothing shows of the blank
memory that it had before the image. -/
theorem coldStart_eq (config : Config) (rom : Array Byte) :
    coldStart config rom =
      (({} : Memory).loadImage rom config.memorySize.toNat).map fun memory =>
        ({ cpu := { memory, config := { minimumSize := config.memorySize } }
           ports := .ofLatches config.in1 config.in2
           halfFrame := config.halfFrame }, [.imageLoaded rom.size memory.size]) := by
  simp only [coldStart, Board.ofMemorySize, Board.load, Cpu.allocate, Cpu.loadImage,
    Cpu.ofConfig, Option.bind_eq_bind, Option.map_map, Option.bind_map]
  cases hblank : ({} : Memory).allocate config.memorySize.toNat with
  | none =>
    have hlimit := Memory.allocate_eq_none_iff.mp hblank
    rw [Memory.loadImage_eq_none_iff.mpr (Nat.lt_of_lt_of_le hlimit (Nat.le_max_right _ _))]
    rfl
  | some blank =>
    rw [← Memory.loadImage_congr (Memory.made_of_allocate hblank).window]
    rfl

/-- A run has nowhere to begin exactly where there cannot be so much memory. -/
theorem coldStart_eq_none_iff :
    coldStart config rom = none ↔ Memory.limit < max rom.size config.memorySize.toNat := by
  rw [coldStart_eq, Option.map_eq_none_iff, Memory.loadImage_eq_none_iff]

theorem coldStart_eq_some (h : coldStart config rom = some (start, records)) :
    start =
      { cpu := { memory := start.cpu.memory, config := { minimumSize := config.memorySize } }
        ports := .ofLatches config.in1 config.in2
        halfFrame := config.halfFrame } := by
  rw [coldStart_eq, Option.map_eq_some_iff] at h
  obtain ⟨memory, _, hstart⟩ := h
  cases hstart
  rfl

/-- A run begins with the image, and zeros as far as the asked size goes. -/
theorem made_coldStart (h : coldStart config rom = some (start, records)) :
    Memory.Made {} start.cpu.memory (max rom.size config.memorySize.toNat)
      fun addr => rom[addr]?.getD 0 := by
  rw [coldStart_eq, Option.map_eq_some_iff] at h
  obtain ⟨memory, hmemory, hstart⟩ := h
  cases hstart
  exact Memory.made_of_loadImage hmemory

/-- What a run comes to, leaving aside what it logs. -/
def outcome? (config : Config) (rom : Array Byte) (log : Log) : Option (Except Error Board) :=
  (run config rom log).map Prod.fst

theorem outcome?_eq_none_iff :
    outcome? config rom log = none ↔ Memory.limit < max rom.size config.memorySize.toNat := by
  rw [← coldStart_eq_none_iff, outcome?, run]
  cases coldStart config rom <;> simp

/-- A run comes to what the frames do from the board on which it begins. -/
theorem outcome?_of_coldStart (h : coldStart config rom = some (start, records)) (log : Log) :
    outcome? config rom log = some
      (runFrames start ((log.addAll records).add (.runStarting rom.size config.frames)) 0
        config.frames).1 := by
  rw [outcome?, run, h]
  rfl

theorem exists_coldStart_of_outcome? (h : outcome? config rom log = some result) :
    ∃ start records, coldStart config rom = some (start, records) := by
  rcases hstart : coldStart config rom with _ | ⟨start, records⟩
  · rw [outcome?, run, hstart] at h
    cases h
  · exact ⟨start, records, rfl⟩

/-- A run of an image succeeds with some board exactly where the schedule of its
frames does, whatever is logged. -/
theorem outcome?_eq_ok_iff :
    outcome? config rom log = some (.ok after) ↔
      ∃ start records, coldStart config rom = some (start, records) ∧
        start.play (frameSchedule config.halfFrame config.frames) = .ok after := by
  have hfrom {start : Board} {records : List Record}
      (hstart : coldStart config rom = some (start, records)) :
      outcome? config rom log = some (.ok after) ↔
        start.play (frameSchedule config.halfFrame config.frames) = .ok after := by
    have hhalf : start.halfFrame = config.halfFrame := by rw [coldStart_eq_some hstart]
    rw [outcome?_of_coldStart hstart, Option.some.injEq, runFrames_eq_ok_iff, hhalf]
  constructor
  · intro h
    obtain ⟨start, records, hstart⟩ := exists_coldStart_of_outcome? h
    exact ⟨start, records, hstart, (hfrom hstart).mp h⟩
  · rintro ⟨start, records, hstart, hplay⟩
    exact (hfrom hstart).mpr hplay

end Run

end Emulation

end Arcade8080
