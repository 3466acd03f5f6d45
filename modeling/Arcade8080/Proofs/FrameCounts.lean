import Arcade8080.Proofs.Schedule

/-!
Runs of one image that are asked for different numbers of frames. What a frame
comes to depends on the board before it and on nothing else, so a longer run
begins with the frames of a shorter one, and a fault keeps the number of its
frame however many were asked for.
-/

namespace Arcade8080

namespace Board

variable {board after middle : Board} {early late done count : Nat} {fault : Fault}

/-- What a frame comes to: the board that it leaves, or the fault that ends it. -/
def nextFrame (board : Board) : Except Fault Board := (board.frame {}).outcome

/-- So many frames, one after the other, all get to their end. -/
def Completes (board : Board) : Nat → Board → Prop
  | 0, after => after = board
  | count + 1, after => ∃ next, board.nextFrame = .ok next ∧ next.Completes count after

/-- So many frames get to their end, and the one after them does not. -/
def FailsAfter (board : Board) (done : Nat) (fault : Fault) : Prop :=
  ∃ reached, board.Completes done reached ∧ reached.nextFrame = .error fault

theorem outcome_frame_eq (board : Board) (log : Log) :
    (board.frame log).outcome = board.nextFrame := by
  rw [nextFrame, outcome_frame, outcome_frame]

theorem completes_succ_of_ok (h : board.nextFrame = .ok middle) :
    board.Completes (count + 1) after ↔ middle.Completes count after := by
  simp [Completes, h]

theorem failsAfter_zero_iff : board.FailsAfter 0 fault ↔ board.nextFrame = .error fault := by
  simp [FailsAfter, Completes]

theorem failsAfter_succ_of_ok (h : board.nextFrame = .ok middle) :
    board.FailsAfter (done + 1) fault ↔ middle.FailsAfter done fault := by
  simp only [FailsAfter, completes_succ_of_ok h]

/-- Before the last of some frames, each number of frames got to its end. -/
theorem exists_completes_of_le (h : board.Completes late after) (hle : early ≤ late) :
    ∃ reached, board.Completes early reached := by
  induction early generalizing board late with
  | zero => exact ⟨board, rfl⟩
  | succ early ih =>
    obtain ⟨left, rfl⟩ := Nat.exists_eq_add_of_lt hle
    obtain ⟨next, hnext, hrest⟩ := h
    obtain ⟨reached, hreached⟩ := ih hrest (Nat.le_add_right early left)
    exact ⟨reached, next, hnext, hreached⟩

end Board

namespace Emulation

variable {board after : Board} {log : Log} {number count : Nat}

theorem runFrames_succ_of_ok {next : Board} (h : board.nextFrame = .ok next) (log : Log)
    (number count : Nat) : ∃ ready,
      runFrames board log number (count + 1) = runFrames next ready (number + 1) count := by
  rw [← Board.outcome_frame_eq board log] at h
  simp only [runFrames]
  rcases hframe : board.frame log with ⟨middle, between, _ | fault⟩
  · rw [hframe] at h
    cases h
    exact ⟨between, rfl⟩
  · rw [hframe] at h
    cases h

theorem runFrames_succ_of_error {fault : Fault} (h : board.nextFrame = .error fault) (log : Log)
    (number count : Nat) :
    (runFrames board log number (count + 1)).1 = .error (.frameFailed number fault) := by
  rw [← Board.outcome_frame_eq board log] at h
  simp only [runFrames]
  rcases hframe : board.frame log with ⟨middle, between, _ | reason⟩
  · rw [hframe] at h
    cases h
  · rw [hframe] at h
    cases h
    rfl

theorem runFrames_eq_ok_iff_completes :
    (runFrames board log number count).1 = .ok after ↔ board.Completes count after := by
  induction count generalizing board log number with
  | zero => simp [runFrames, Board.Completes, eq_comm]
  | succ count ih =>
    cases hnext : board.nextFrame with
    | ok next =>
      obtain ⟨ready, hrun⟩ := runFrames_succ_of_ok hnext log number count
      rw [hrun, Board.completes_succ_of_ok hnext]
      exact ih
    | error fault =>
      rw [runFrames_succ_of_error hnext]
      simp [Board.Completes, hnext]

/-- Frames fail with the first fault among them, under the number of its frame. -/
theorem runFrames_eq_error_iff {error : Error} :
    (runFrames board log number count).1 = .error error ↔
      ∃ done < count, ∃ fault, board.FailsAfter done fault ∧
        error = .frameFailed (number + done) fault := by
  induction count generalizing board log number with
  | zero => simp [runFrames]
  | succ count ih =>
    cases hnext : board.nextFrame with
    | ok next =>
      obtain ⟨ready, hrun⟩ := runFrames_succ_of_ok hnext log number count
      rw [hrun, ih]
      constructor
      · rintro ⟨done, hdone, fault, hfails, rfl⟩
        refine ⟨done + 1, by omega, fault, (Board.failsAfter_succ_of_ok hnext).mpr hfails, ?_⟩
        rw [Nat.add_assoc, Nat.add_comm 1]
      · rintro ⟨_ | done, hdone, fault, hfails, rfl⟩
        · rw [Board.failsAfter_zero_iff, hnext] at hfails
          cases hfails
        · refine ⟨done, by omega, fault, (Board.failsAfter_succ_of_ok hnext).mp hfails, ?_⟩
          rw [Nat.add_assoc, Nat.add_comm 1]
    | error reason =>
      rw [runFrames_succ_of_error hnext]
      constructor
      · rintro ⟨⟩
        exact ⟨0, by omega, reason, Board.failsAfter_zero_iff.mpr hnext, rfl⟩
      · rintro ⟨_ | done, hdone, fault, hfails, rfl⟩
        · rw [Board.failsAfter_zero_iff, hnext, Except.error.injEq] at hfails
          rw [hfails]
          rfl
        · obtain ⟨reached, ⟨next, hother, _⟩, _⟩ := hfails
          rw [hnext] at hother
          cases hother

/-- A run of more frames goes on from the board of a run of fewer, frame by frame,
and fails where the first of the further frames fails. A run that fails names the
number of frames that it got through; every run of at most so many frames succeeds,
and every run of more of them fails in the same frame with the same fault. -/
theorem runs_share_their_frames (config : Config) (rom : Array Byte) :
    (∀ (early late : Nat) (log other : Log) (board : Board),
      outcome? { config with frames := early } rom log = some (.ok board) →
        (∀ after, outcome? { config with frames := early + late } rom other = some (.ok after) ↔
          board.Completes late after) ∧
        ∀ error, outcome? { config with frames := early + late } rom other = some (.error error) ↔
          ∃ done < late, ∃ fault, board.FailsAfter done fault ∧
            error = .frameFailed (early + done) fault) ∧
    ∀ (frames : Nat) (log : Log) (error : Error),
      outcome? { config with frames } rom log = some (.error error) →
        ∃ start records, coldStart config rom = some (start, records) ∧
        ∃ done < frames, ∃ fault, error = .frameFailed done fault ∧
          start.FailsAfter done fault ∧
          (∀ count ≤ done, ∀ other, ∃ board,
            outcome? { config with frames := count } rom other = some (.ok board) ∧
            start.Completes count board) ∧
          ∀ count, done < count → ∀ other,
            outcome? { config with frames := count } rom other =
              some (.error (.frameFailed done fault)) := by
  constructor
  · intro early late log other board h
    obtain ⟨start, records, hstart⟩ := exists_coldStart_of_outcome? h
    rw [outcome?_of_coldStart hstart, Option.some.injEq, runFrames_eq_ok_iff_completes] at h
    have hlonger : coldStart { config with frames := early + late } rom = some (start, records) :=
      hstart
    -- The two runs differ in what they log, but not in their boards.
    rw [outcome?_of_coldStart hlonger]
    generalize (other.addAll records).add _ = ready
    have hboard : (runFrames start ready 0 early).1 = .ok board :=
      runFrames_eq_ok_iff_completes.mpr h
    simp only [Option.some.injEq, runFrames_add]
    rcases hearly : runFrames start ready 0 early with ⟨reached, between⟩
    rw [hearly] at hboard
    cases hboard
    simp only [Nat.zero_add]
    exact ⟨fun after => runFrames_eq_ok_iff_completes, fun error => runFrames_eq_error_iff⟩
  · intro frames log error h
    obtain ⟨start, records, hstart⟩ := exists_coldStart_of_outcome? h
    rw [outcome?_of_coldStart hstart, Option.some.injEq, runFrames_eq_error_iff] at h
    obtain ⟨done, hdone, fault, hfails, rfl⟩ := h
    rw [Nat.zero_add]
    have hother (count : Nat) :
        coldStart { config with frames := count } rom = some (start, records) := hstart
    refine ⟨start, records, hstart, done, hdone, fault, rfl, hfails, ?_, ?_⟩
    · intro count hcount other
      obtain ⟨reached, hcompletes, _⟩ := hfails
      obtain ⟨board, hboard⟩ := Board.exists_completes_of_le hcompletes hcount
      refine ⟨board, ?_, hboard⟩
      rw [outcome?_of_coldStart (hother count), Option.some.injEq]
      exact runFrames_eq_ok_iff_completes.mpr hboard
    · intro count hcount other
      rw [outcome?_of_coldStart (hother count), Option.some.injEq, runFrames_eq_error_iff]
      exact ⟨done, hcount, fault, hfails, by rw [Nat.zero_add]⟩

/-- Three bytes of memory to run through, at two steps a frame. -/
def runningOut : Config := { frames := 1, halfFrame := 1, memorySize := 3 }

/-- The second frame is the one that leaves memory, for a run of two frames as for
one of nine, and a run of one frame does not get there. -/
theorem runs_share_their_frames_of_runningOut :
    (∃ board, outcome? runningOut #[] {} = some (.ok board) ∧
      board.FailsAfter 0 (.outOfBounds 3 3) ∧
      outcome? { runningOut with frames := 1 + 2 } #[] {} =
        some (.error (.frameFailed 1 (.outOfBounds 3 3)))) ∧
    outcome? { runningOut with frames := 2 } #[] {} =
      some (.error (.frameFailed 1 (.outOfBounds 3 3))) ∧
    outcome? { runningOut with frames := 9 } #[] {} =
      some (.error (.frameFailed 1 (.outOfBounds 3 3))) := by
  have hfailed : outcome? { runningOut with frames := 2 } #[] {} =
      some (.error (.frameFailed 1 (.outOfBounds 3 3))) := rfl
  obtain ⟨board, hboard⟩ : ∃ board, outcome? runningOut #[] {} = some (.ok board) := ⟨_, rfl⟩
  obtain ⟨hlonger, hfault⟩ := runs_share_their_frames runningOut #[]
  obtain ⟨_, hfurther⟩ := hlonger 1 2 {} {} board hboard
  obtain ⟨_, _, _, done, _, fault, herror, hfails, _, hmore⟩ := hfault 2 {} _ hfailed
  cases herror
  have hthree := hmore 3 (by decide) {}
  obtain ⟨past, _, reason, hpast, hsame⟩ := (hfurther _).mp hthree
  simp only [Error.frameFailed.injEq] at hsame
  obtain ⟨hnumber, rfl⟩ := hsame
  obtain rfl : past = 0 := by omega
  exact ⟨⟨board, hboard, hpast, hthree⟩, hfailed, hmore 9 (by decide) {}⟩

end Emulation

end Arcade8080
