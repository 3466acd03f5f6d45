import Arcade8080.Proofs.Schedule

/-!
What a run tells its log. A log keeps the records that it shows, and nothing else depends on
it: every log is told the same records, and the boards and the faults of a run are the same
whichever of them are kept.
-/

namespace Arcade8080

theorem Log.addAll_eq (log : Log) (records : List Record) :
    log.addAll records =
      { log with kept := log.kept ++ (records.filter log.shows).toArray } := by
  induction records generalizing log with
  | nil => simp [addAll]
  | cons record rest ih =>
    have hnext : log.addAll (record :: rest) = (log.add record).addAll rest := rfl
    rw [hnext, ih, add]
    by_cases h : log.shows record = true <;> simp [h]

namespace Board

theorem exists_records_advance (board : Board) (count : Nat) :
    ∃ records, ∀ log,
      board.advance log count = { board.advance {} count with log := log.addAll records } := by
  induction count generalizing board with
  | zero => exact ⟨[], fun log => rfl⟩
  | succ count ih =>
    simp only [advance]
    rcases board.step with ⟨fault | outcome, after, records⟩
    · exact ⟨records, fun log => rfl⟩
    · obtain ⟨later, hlater⟩ := ih after
      refine ⟨records ++ later, fun log => ?_⟩
      dsimp only
      rw [hlater (log.addAll records), hlater (({} : Log).addAll records), Log.addAll_addAll]

theorem exists_records_half (board : Board) (request : Byte) :
    ∃ records, ∀ log,
      board.half log request = { board.half {} request with log := log.addAll records } := by
  obtain ⟨records, hrecords⟩ := exists_records_advance board board.halfFrame
  rcases hadvance : board.advance {} board.halfFrame with ⟨after, between, _ | fault⟩
  · refine ⟨records ++ (after.interrupt request).2, fun log => ?_⟩
    simp only [half, hrecords log, hadvance, Log.addAll_addAll]
  · refine ⟨records, fun log => ?_⟩
    simp only [half, hrecords log, hadvance]

theorem exists_records_frame (board : Board) :
    ∃ records, ∀ log, board.frame log = { board.frame {} with log := log.addAll records } := by
  obtain ⟨records, hrecords⟩ := exists_records_half board 1
  rcases hhalf : board.half {} 1 with ⟨middle, between, _ | fault⟩
  · obtain ⟨later, hlater⟩ := exists_records_half middle 2
    refine ⟨records ++ later, fun log => ?_⟩
    simp only [frame, hrecords log, hhalf]
    rw [hlater (log.addAll records), hlater between, Log.addAll_addAll]
  · refine ⟨records, fun log => ?_⟩
    simp only [frame, hrecords log, hhalf]

end Board

namespace Emulation

theorem exists_records_runFrames (board : Board) (number count : Nat) :
    ∃ records, ∀ log, runFrames board log number count =
      ((runFrames board {} number count).1, log.addAll records) := by
  induction count generalizing board number with
  | zero => exact ⟨[], fun log => rfl⟩
  | succ count ih =>
    obtain ⟨records, hrecords⟩ := board.exists_records_frame
    rcases hframe : board.frame {} with ⟨after, between, _ | fault⟩
    · obtain ⟨later, hlater⟩ := ih after (number + 1)
      refine ⟨records ++ later, fun log => ?_⟩
      simp only [runFrames, hrecords log, hframe]
      rw [hlater (log.addAll records), hlater between, Log.addAll_addAll]
    · refine ⟨records, fun log => ?_⟩
      simp only [runFrames, hrecords log, hframe]

/-- A run comes to the same with every log, and tells every log the same records. -/
theorem exists_records_run (config : Config) (rom : Array Byte) :
    ∃ records, ∀ log, run config rom log =
      (outcome? config rom {}).map fun result => (result, log.addAll records) := by
  rcases hstart : coldStart config rom with _ | ⟨start, loaded⟩
  · refine ⟨[], fun log => ?_⟩
    rw [outcome?, run, run, hstart]
    rfl
  · obtain ⟨records, hrecords⟩ := exists_records_runFrames start 0 config.frames
    refine ⟨loaded ++ .runStarting rom.size config.frames :: records, fun log => ?_⟩
    rw [outcome?_of_coldStart hstart, run, hstart]
    simp only [Option.bind_eq_bind, Option.bind_some, Option.pure_def, Option.map_some]
    rw [hrecords, hrecords (Log.add _ _), ← Log.addAll_addAll]
    rfl

end Emulation

end Arcade8080
