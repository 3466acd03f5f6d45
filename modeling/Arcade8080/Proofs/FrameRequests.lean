import Arcade8080.Proofs.Interrupts
import Arcade8080.Proofs.Schedule

/-!
What becomes of the requests of a frame. A request waits for one step and no
longer, as that step either delivers it or drops it. So the two requests of a
frame never meet where its halves have steps, and where they have none, the
second takes the place of the first.
-/

namespace Arcade8080

namespace Cpu

variable {cpu : Cpu} {number : Restart}

/-- Of the steps that succeed, those deliver a request that find one due. -/
theorem eq_interrupted_iff_of_ok {outcome : StepOutcome} (h : cpu.step.result = .ok outcome) :
    outcome = .interrupted number ↔
      cpu.pending = some number ∧ cpu.interruptsEnabled = true := by
  constructor
  · rintro rfl
    obtain ⟨hpending, henabled, _⟩ := step_eq_interrupted_iff.mp h
    exact ⟨hpending, henabled⟩
  · rintro ⟨hpending, henabled⟩
    rw [step_eq] at h
    obtain ⟨after, hcore⟩ := result_transact_eq_ok_iff.mp h
    rw [hpending, Core.result_run_step_of_due henabled, Attempt.map_eq_ok_iff] at hcore
    obtain ⟨_, _, hpair⟩ := hcore
    cases hpair
    rfl

/-- A step that finds a request it may not deliver says so before all else. -/
theorem records_step_of_masked (hpending : cpu.pending = some number)
    (hmasked : cpu.interruptsEnabled = false) :
    ∃ rest, cpu.step.records = .requestDropped number :: rest := by
  have hidle : cpu.pending = none ∨ cpu.interruptsEnabled = false := .inr hmasked
  have hrun := Core.run_step_of_idle hidle cpu.memory
  rw [step_eq, transact_eq, hrun, hpending]
  exact ⟨_, rfl⟩

end Cpu

namespace Board

variable {board : Board} {log : Log}

/-- What a step makes of the request that it finds: it delivers the request if
interrupts are enabled and drops it if they are not, and leaves none. -/
structure Settles (board : Board) (request : Option Restart) : Prop where
  pending : board.cpu.pending = request
  succeeds : ∃ outcome, board.step.result = .ok outcome
  interrupted_iff : ∀ number, board.step.result = .ok (.interrupted number) ↔
    request = some number ∧ board.cpu.interruptsEnabled = true
  dropped : ∀ number, request = some number → board.cpu.interruptsEnabled = false →
    ∃ rest, board.step.records = .requestDropped number :: rest
  settled : board.step.state.cpu.pending = none

theorem settles_of_ok {request : Option Restart} (hpending : board.cpu.pending = request)
    (h : ∃ outcome, board.step.result = .ok outcome) : board.Settles request where
  pending := hpending
  succeeds := h
  interrupted_iff := by
    intro number
    obtain ⟨outcome, hresult⟩ := h
    rw [hresult, Except.ok.injEq, ← hpending]
    rw [result_step] at hresult
    exact Cpu.eq_interrupted_iff_of_ok hresult
  dropped := by
    intro number hrequest hmasked
    rw [records_step]
    exact Cpu.records_step_of_masked (hpending.trans hrequest) hmasked
  settled := pending_step board

/-- None of the first steps fails. -/
def Succeeds (board : Board) (count : Nat) : Prop :=
  ∀ index < count, ∃ outcome, (board.afterSteps index).step.result = .ok outcome

/-- What the first steps record. -/
def stepRecords (board : Board) (count : Nat) : List Record :=
  (List.range count).flatMap fun index => (board.afterSteps index).step.records

theorem stepRecords_succ (board : Board) (count : Nat) :
    board.stepRecords (count + 1) = board.step.records ++ board.step.state.stepRecords count := by
  simp [stepRecords, List.range_succ_eq_map, List.flatMap_map, afterSteps_succ_eq]

/-- Steps with no fault among them leave the board where so many steps lead. -/
theorem advance_of_no_fault {count : Nat} (h : (board.advance log count).fault = none) :
    board.Succeeds count ∧
      board.advance log count =
        { board := board.afterSteps count, log := log.addAll (board.stepRecords count) } := by
  induction count generalizing board log with
  | zero => exact ⟨fun index hindex => absurd hindex (Nat.not_lt_zero index), rfl⟩
  | succ count ih =>
    have hafter : board.afterSteps (count + 1) = board.step.state.afterSteps count :=
      afterSteps_succ_eq board count
    have hrecords := stepRecords_succ board count
    simp only [advance] at h ⊢
    rcases hstep : board.step with ⟨fault | outcome, after, records⟩
    · rw [hstep] at h
      cases h
    · rw [hstep] at h hafter hrecords
      obtain ⟨hsucceeds, hrest⟩ := ih h
      constructor
      · rintro (_ | index) hindex
        · exact ⟨outcome, by rw [afterSteps_zero, hstep]⟩
        · rw [afterSteps_succ_eq, hstep]
          exact hsucceeds index (by omega)
      · rw [hafter, hrecords, ← Log.addAll_addAll]
        exact hrest

theorem half_of_no_fault {request : Byte} (h : (board.half log request).fault = none) :
    board.Succeeds board.halfFrame ∧
      board.half log request =
        { board := ((board.afterSteps board.halfFrame).interrupt request).1
          log := log.addAll (board.stepRecords board.halfFrame ++
            ((board.afterSteps board.halfFrame).interrupt request).2) } := by
  simp only [half] at h ⊢
  rcases hadvance : board.advance log board.halfFrame with ⟨after, between, _ | fault⟩
  · obtain ⟨hsucceeds, hend⟩ := advance_of_no_fault (congrArg Progress.fault hadvance)
    rw [hadvance] at hend
    cases hend
    exact ⟨hsucceeds, by simp only [Log.addAll_addAll]⟩
  · rw [hadvance] at h
    cases h

/-- The board after a half with steps: the request of its end has found none before it. -/
theorem interrupt_afterSteps (board : Board) {count : Nat} (h : 0 < count) (request : Byte) :
    (board.afterSteps count).cpu.pending = none ∧
      ((board.afterSteps count).interrupt request).2 = [] := by
  obtain ⟨earlier, rfl⟩ := Nat.exists_eq_succ_of_ne_zero (Nat.ne_of_gt h)
  have hpending : (board.afterSteps (earlier + 1)).cpu.pending = none :=
    pending_step (board.afterSteps earlier)
  exact ⟨hpending, by simp [interrupt, Cpu.interrupt, hpending]⟩

/-- The board in the middle of a frame, after the request there. -/
def middle (board : Board) : Board := ((board.afterSteps board.halfFrame).interrupt 1).1

def frameEnd (board : Board) : Board := ((board.middle.afterSteps board.halfFrame).interrupt 2).1

/-- The board just before a step of a frame; steps count from 0. -/
def frameStep (board : Board) (index : Nat) : Board :=
  if index < board.halfFrame then board.afterSteps index
  else board.middle.afterSteps (index - board.halfFrame)

theorem frameStep_zero (h : 0 < board.halfFrame) : board.frameStep 0 = board := if_pos h

/-- The request that a step of a frame finds: the first step the one that was there
before, the first one after the middle restart 1, and no other step any. -/
def owed (board : Board) (index : Nat) : Option Restart :=
  if index = 0 then board.cpu.pending
  else if index = board.halfFrame then some (Octal.ofNat 1)
  else none

/-- What a frame with steps does that gets to its end. -/
structure FrameLaw (board : Board) (log : Log) : Prop where
  settles : ∀ index < 2 * board.halfFrame, (board.frameStep index).Settles (board.owed index)
  /-- Neither request takes the place of another. -/
  free : (board.afterSteps board.halfFrame).cpu.pending = none ∧
    (board.middle.afterSteps board.halfFrame).cpu.pending = none
  /-- These are all of the steps, and nothing else is recorded. -/
  frame : board.frame log =
    { board := board.frameEnd
      log := log.addAll
        ((List.range (2 * board.halfFrame)).flatMap fun index =>
          (board.frameStep index).step.records) }
  owes : board.frameEnd.cpu.pending = some (Octal.ofNat 2)

theorem halfFrame_middle (board : Board) : board.middle.halfFrame = board.halfFrame :=
  halfFrame_afterSteps board board.halfFrame

theorem halfFrame_frameEnd (board : Board) : board.frameEnd.halfFrame = board.halfFrame :=
  (halfFrame_afterSteps board.middle board.halfFrame).trans (halfFrame_middle board)

theorem pending_frameStep (h : 0 < board.halfFrame) (index : Nat) :
    (board.frameStep index).cpu.pending = board.owed index := by
  have hsettled (start : Board) (count : Nat) :
      (start.afterSteps (count + 1)).cpu.pending = none := pending_step (start.afterSteps count)
  rw [frameStep, owed]
  split
  · rename_i hfirst
    cases index with
    | zero => rfl
    | succ earlier => rw [hsettled, if_neg (by omega), if_neg (by omega)]
  · rename_i hsecond
    rw [if_neg (by omega)]
    cases hpast : index - board.halfFrame with
    | zero =>
      rw [if_pos (by omega)]
      rfl
    | succ earlier => rw [hsettled, if_neg (by omega)]

theorem succeeds_frameStep (hfirst : board.Succeeds board.halfFrame)
    (hsecond : board.middle.Succeeds board.halfFrame) {index : Nat}
    (hindex : index < 2 * board.halfFrame) :
    ∃ outcome, (board.frameStep index).step.result = .ok outcome := by
  rw [frameStep]
  split
  · exact hfirst index ‹_›
  · exact hsecond (index - board.halfFrame) (by omega)

/-- The records of a frame are those of its halves. -/
theorem records_frameStep (board : Board) :
    ((List.range (2 * board.halfFrame)).flatMap fun index =>
        (board.frameStep index).step.records) =
      board.stepRecords board.halfFrame ++ board.middle.stepRecords board.halfFrame := by
  have hfirst : ∀ index ∈ List.range board.halfFrame,
      (board.frameStep index).step.records = (board.afterSteps index).step.records := by
    intro index hindex
    rw [frameStep, if_pos (List.mem_range.mp hindex)]
  have hsecond (index : Nat) :
      (board.frameStep (board.halfFrame + index)).step.records =
        (board.middle.afterSteps index).step.records := by
    rw [frameStep, if_neg (by omega), Nat.add_sub_cancel_left]
  rw [Nat.two_mul, List.range_add, List.flatMap_append, List.flatMap_map]
  simp only [hsecond, List.flatMap_def, List.map_congr_left hfirst, stepRecords]

theorem fault_half_of_frame (h : (board.frame log).fault = none) :
    (board.half log 1).fault = none := by
  simp only [frame] at h
  rcases hhalf : board.half log 1 with ⟨reached, between, _ | fault⟩
  · rfl
  · rw [hhalf] at h
    cases h

/-- A frame with steps that gets to its end is as frames should be. -/
theorem frameLaw_of_no_fault (hsteps : 0 < board.halfFrame)
    (h : (board.frame log).fault = none) : board.FrameLaw log := by
  have hsame : board.middle.halfFrame = board.halfFrame := halfFrame_middle board
  obtain ⟨hfree, hsilent⟩ := interrupt_afterSteps board hsteps 1
  obtain ⟨hfreeEnd, hsilentEnd⟩ := interrupt_afterSteps board.middle hsteps 2
  obtain ⟨hfirst, hmiddle⟩ := half_of_no_fault (fault_half_of_frame h)
  have hframe : board.frame log =
      board.middle.half (log.addAll (board.stepRecords board.halfFrame)) 2 := by
    rw [frame, hmiddle, hsilent, List.append_nil]
    rfl
  rw [hframe] at h
  obtain ⟨hsecond, hend⟩ := half_of_no_fault h
  rw [hsame] at hsecond hend
  constructor
  · intro index hindex
    exact settles_of_ok (pending_frameStep hsteps index)
      (succeeds_frameStep hfirst hsecond hindex)
  · exact ⟨hfree, hfreeEnd⟩
  · rw [hframe, hend, hsilentEnd, List.append_nil, Log.addAll_addAll, records_frameStep]
    rfl
  · rfl

/-- A frame without steps does nothing but make its two requests. -/
theorem frame_of_no_steps (h : board.halfFrame = 0) (log : Log) :
    board.frame log =
      { board := { board with cpu.pending := some (Octal.ofNat 2) }
        log := log.addAll ((board.interrupt 1).2 ++
          [.requestReplaced (Octal.ofNat 1) (Octal.ofNat 2)]) } := by
  have hhalf (start : Board) (between : Log) (request : Byte) (hstart : start.halfFrame = 0) :
      start.half between request =
        { board := (start.interrupt request).1
          log := between.addAll (start.interrupt request).2 } := by
    rw [half, hstart, advance]
  have hsame : (board.interrupt 1).1.halfFrame = 0 := h
  rw [frame, hhalf board log 1 h, ← Log.addAll_addAll]
  exact hhalf _ _ 2 hsame

end Board

namespace Emulation

variable {board finish : Board} {log : Log} {number frames : Nat}

/-- A run of some frames has, before each of them, come so far. -/
theorem exists_runFrames_of_le {done : Nat} (h : (runFrames board log number frames).1 = .ok finish)
    (hdone : done ≤ frames) :
    ∃ start ready, runFrames board log number done = (.ok start, ready) ∧
      (runFrames start ready (number + done) (frames - done)).1 = .ok finish := by
  obtain ⟨left, rfl⟩ := Nat.exists_eq_add_of_le hdone
  rw [Nat.add_sub_cancel_left]
  rw [runFrames_add] at h
  rcases hearly : runFrames board log number done with ⟨error | start, ready⟩
  · rw [hearly] at h
    cases h
  · rw [hearly] at h
    exact ⟨start, ready, rfl, h⟩

theorem fault_frame_of_runFrames {left : Nat}
    (h : (runFrames board log number (left + 1)).1 = .ok finish) :
    (board.frame log).fault = none := by
  simp only [runFrames] at h
  rcases hframe : board.frame log with ⟨after, between, _ | fault⟩
  · rfl
  · rw [hframe] at h
    cases h

theorem runFrames_one (hframe : (board.frame log).fault = none) (number : Nat) :
    runFrames board log number 1 = (.ok (board.frame log).board, (board.frame log).log) := by
  simp only [runFrames]
  rcases h : board.frame log with ⟨after, between, _ | fault⟩
  · rfl
  · rw [h] at hframe
    cases hframe

/-- Induction on the frames: each leaves restart 2 to the next. -/
theorem pending_runFrames (hsteps : 0 < board.halfFrame)
    (h : (runFrames board log number frames).1 = .ok finish) :
    finish.halfFrame = board.halfFrame ∧
      finish.cpu.pending = if frames = 0 then board.cpu.pending else some (Octal.ofNat 2) := by
  induction frames generalizing finish with
  | zero =>
    cases h
    exact ⟨rfl, rfl⟩
  | succ frames ih =>
    obtain ⟨start, ready, hearly, hlast⟩ := exists_runFrames_of_le h (Nat.le_add_right frames 1)
    have hsame := (ih (congrArg Prod.fst hearly)).1
    rw [Nat.add_sub_cancel_left] at hlast
    have hfault := fault_frame_of_runFrames hlast
    rw [runFrames_one hfault] at hlast
    have hlaw := Board.frameLaw_of_no_fault (hsame ▸ hsteps) hfault
    cases hlast
    rw [hlaw.frame]
    exact ⟨(Board.halfFrame_frameEnd start).trans hsame, hlaw.owes⟩

theorem runFrames_of_no_steps (h : board.halfFrame = 0) (log : Log) (number count : Nat) :
    (runFrames board log number (count + 1)).1 =
      .ok { board with cpu.pending := some (Octal.ofNat 2) } := by
  induction count generalizing board log number with
  | zero => simp only [runFrames, Board.frame_of_no_steps h]
  | succ count ih =>
    have hafter : Board.halfFrame { board with cpu.pending := some (Octal.ofNat 2) } = 0 := h
    rw [runFrames, Board.frame_of_no_steps h]
    exact ih hafter _ (number + 1)

/-- Each frame of a run with steps keeps to the law of frames, the first one with what
was pending before it and each later one with restart 2: of its steps only the first
and the one after the middle find a request, which they deliver or drop. A frame
without steps leaves restart 2 in the place of restart 1. The first step of a run of
an image finds nothing to deliver. -/
theorem frames_settle_their_requests :
    (∀ (board finish : Board) (log : Log) (number frames : Nat), 0 < board.halfFrame →
      (runFrames board log number frames).1 = .ok finish →
        (∀ done < frames, ∃ start ready,
          runFrames board log number done = (.ok start, ready) ∧
          start.halfFrame = board.halfFrame ∧
          start.cpu.pending =
            (if done = 0 then board.cpu.pending else some (Octal.ofNat 2)) ∧
          start.FrameLaw ready) ∧
        (0 < frames → finish.cpu.pending = some (Octal.ofNat 2))) ∧
    (∀ (board : Board) (log : Log), board.halfFrame = 0 →
      board.frame log =
        { board := { board with cpu.pending := some (Octal.ofNat 2) }
          log := log.addAll ((board.interrupt 1).2 ++
            [.requestReplaced (Octal.ofNat 1) (Octal.ofNat 2)]) } ∧
      ∀ number count, (runFrames board log number (count + 1)).1 =
        .ok { board with cpu.pending := some (Octal.ofNat 2) }) ∧
    ∀ (config : Config) (rom : Array Byte) (log : Log) (start : Board) (records : List Record),
      coldStart config rom = some (start, records) →
        (∃ ready, run config rom log = some (runFrames start ready 0 config.frames)) ∧
        ∀ number, start.step.result ≠ .ok (.interrupted number) := by
  refine ⟨?_, ?_, ?_⟩
  · intro board finish log number frames hsteps h
    constructor
    · intro done hdone
      obtain ⟨left, rfl⟩ := Nat.exists_eq_add_of_lt hdone
      obtain ⟨start, ready, hearly, hrest⟩ := exists_runFrames_of_le h (Nat.le_of_lt hdone)
      have hleft : done + left + 1 - done = left + 1 := by omega
      rw [hleft] at hrest
      obtain ⟨hsame, hpending⟩ := pending_runFrames hsteps (congrArg Prod.fst hearly)
      have hlaw := Board.frameLaw_of_no_fault (hsame ▸ hsteps) (fault_frame_of_runFrames hrest)
      exact ⟨start, ready, hearly, hsame, hpending, hlaw⟩
    · intro hsome
      rw [(pending_runFrames hsteps h).2, if_neg (Nat.ne_of_gt hsome)]
  · intro board log h
    exact ⟨Board.frame_of_no_steps h log, runFrames_of_no_steps h log⟩
  · intro config rom log start records hstart
    constructor
    · rw [run, hstart]
      exact ⟨_, rfl⟩
    · intro number hresult
      rw [Board.result_step, coldStart_eq_some hstart] at hresult
      have hpending := (Cpu.step_eq_interrupted_iff.mp hresult).1
      cases hpending

/-- A board that enables interrupts in the first step of all, and then never again. -/
def enablingOnce (halfFrame : Nat) : Board where
  cpu :=
    { sp := 0x14
      memory := ⟨some #[0xFB, 0, 0, 0, 0, 0, 0, 0, 0, 0, 0, 0, 0, 0, 0, 0, 0, 0, 0, 0],
        .unrestricted, by decide⟩ }
  ports := .ofLatches 0 0
  halfFrame

/-- With a step to each half, its first frame delivers restart 1 and its second one
loses restart 2 at once. Without steps, restart 2 replaces restart 1. A run of the
same EI finds nothing to deliver in its first step. -/
theorem frames_settle_their_requests_of_enablingOnce :
    ((enablingOnce 1).frameStep 1).step.result = .ok (.interrupted (Octal.ofNat 1)) ∧
    (∃ start ready rest, runFrames (enablingOnce 1) {} 0 1 = (.ok start, ready) ∧
      start.step.records = .requestDropped (Octal.ofNat 2) :: rest) ∧
    (∃ finish, (runFrames (enablingOnce 1) {} 0 2).1 = .ok finish ∧
      finish.cpu.pending = some (Octal.ofNat 2)) ∧
    ((enablingOnce 0).frame {}).board =
      { enablingOnce 0 with cpu.pending := some (Octal.ofNat 2) } ∧
    (∃ start records, coldStart { memorySize := 2 } #[0xFB] = some (start, records) ∧
      ∀ number, start.step.result ≠ .ok (.interrupted number)) := by
  obtain ⟨finish, hfinish⟩ :
      ∃ finish, (runFrames (enablingOnce 1) {} 0 2).1 = .ok finish := ⟨_, rfl⟩
  obtain ⟨hframes, hend⟩ :=
    frames_settle_their_requests.1 (enablingOnce 1) finish {} 0 2 (by decide) hfinish
  refine ⟨?_, ?_, ⟨finish, hfinish, hend (by decide)⟩, ?_, ?_⟩
  · obtain ⟨start, ready, hstart, _, _, hlaw⟩ := hframes 0 (by decide)
    cases hstart
    exact ((hlaw.settles 1 (by decide)).interrupted_iff _).mpr ⟨rfl, rfl⟩
  · obtain ⟨start, ready, hstart, hsame, hpending, hlaw⟩ := hframes 1 (by decide)
    have hmasked : start.cpu.interruptsEnabled = false := by
      have hrun : (runFrames (enablingOnce 1) {} 0 1).1.toOption.map
          (fun reached => reached.cpu.interruptsEnabled) = some false := rfl
      rw [hstart] at hrun
      exact Option.some.inj hrun
    have hsteps : 0 < start.halfFrame := by
      rw [hsame]
      decide
    have hfirst := hlaw.settles 0 (by omega)
    rw [Board.frameStep_zero hsteps] at hfirst
    obtain ⟨rest, hrest⟩ := hfirst.dropped (Octal.ofNat 2) hpending hmasked
    exact ⟨start, ready, rest, hstart, hrest⟩
  · exact congrArg Board.Progress.board (frames_settle_their_requests.2.1 (enablingOnce 0) {} rfl).1
  · obtain ⟨start, records, hstart⟩ :
        ∃ start records, coldStart { memorySize := 2 } #[0xFB] = some (start, records) :=
      ⟨_, _, rfl⟩
    exact ⟨start, records, hstart, (frames_settle_their_requests.2.2 _ _ {} _ _ hstart).2⟩

end Emulation

end Arcade8080
