import Mathlib.Data.Nat.Digits.Defs
import Arcade8080.CommandLine
import Arcade8080.Proofs.FrameCounts
import Arcade8080.Proofs.RunLog

/-!
What the command line answers to any arguments, which are Unicode texts, and any files. The
answer is told by rules that exclude each other: which numbers count as numbers of frames is a
grammar with place values, and what a run comes to is a matter of its image and that number
alone. The second output begins with what a logger shows of the records of the run. None of
them is an error, so a logger that shows nothing but errors adds nothing to an answer.
-/

namespace Arcade8080

theorem Record.level_ne_error (record : Record) : record.level ≠ .error := by
  cases record <;> simp [level]

namespace Emulation

variable {config : Config}

/-- A run of an image that is there can only fail in one of its frames. -/
theorem exists_frameFailed_of_outcome? {rom : Array Byte} {log : Log} {error : Error}
    (h : outcome? config rom log = some (.error error)) :
    ∃ frame fault, error = .frameFailed frame fault := by
  obtain ⟨start, records, hstart⟩ := exists_coldStart_of_outcome? h
  rw [outcome?_of_coldStart hstart, Option.some.injEq, runFrames_eq_error_iff] at h
  obtain ⟨done, _, fault, _, herror⟩ := h
  exact ⟨_, fault, herror⟩

/-- What a file holds is never too large for memory, so the default amount can be made. -/
theorem exists_outcome? (frames : Nat) (rom : Content) :
    ∃ result, outcome? { frames } rom.bytes {} = some result := by
  refine Option.ne_none_iff_exists'.mp fun hnone => ?_
  have hlimit := outcome?_eq_none_iff.mp hnone
  have hfits := rom.fits
  have hlarger : Memory.limit < max rom.bytes.size (0x4000 : Size).toNat := hlimit
  have hdefault : (0x4000 : Size).toNat ≤ Memory.limit := by decide
  omega

/-- What a run of a file comes to, told without its log. -/
def fileOutcome? (config : Config) (files : Files) (path : String) :
    Option (Except Error Board) :=
  match files path with
  | .error cause => some (.error (.romUnreadable path cause))
  | .ok rom => outcome? config rom.bytes {}

section File

variable {files : Files} {path : String}

theorem fileOutcome?_of_error {cause : ReadError} (h : files path = .error cause) :
    fileOutcome? config files path = some (.error (.romUnreadable path cause)) := by
  rw [fileOutcome?, h]

theorem fileOutcome?_of_ok {rom : Content} (h : files path = .ok rom) :
    fileOutcome? config files path = outcome? config rom.bytes {} := by
  rw [fileOutcome?, h]

/-- A run of a file comes to the same with every log, and tells every log the same records. -/
theorem exists_records_runFile (config : Config) (files : Files) (path : String) :
    ∃ records, ∀ log, runFile config files path log =
      (fileOutcome? config files path).map fun result => (result, log.addAll records) := by
  cases hfile : files path with
  | error cause =>
    refine ⟨[], fun log => ?_⟩
    rw [runFile, hfile, fileOutcome?_of_error hfile]
    rfl
  | ok rom =>
    obtain ⟨records, hrecords⟩ := exists_records_run config rom.bytes
    refine ⟨records, fun log => ?_⟩
    rw [runFile, hfile, fileOutcome?_of_ok hfile]
    exact hrecords log

end File

end Emulation

namespace CommandLine

open Emulation (fileOutcome?)

section Numerals

/-- The number that decimal digits write: each weighs by its place, counted from the last. -/
def placeValue (digits : List Char) : Nat :=
  Nat.ofDigits 10 (digits.reverse.map fun c => c.toNat - '0'.toNat)

/-- Decimal digits, at least one of them, write a number. -/
structure Writes (digits : List Char) (number : Nat) : Prop where
  ne_nil : digits ≠ []
  isDigit : ∀ c ∈ digits, c.isDigit = true
  value : placeValue digits = number

/-- A text gives a number of frames: digits with at most one plus sign before them, for a
number of 32 bits. -/
def IsFrameCount (text : String) (frames : Nat) : Prop :=
  frames ≤ 0xFFFFFFFF ∧
    (Writes text.toList frames ∨ ∃ digits, text.toList = '+' :: digits ∧ Writes digits frames)

theorem decimalValue_eq_placeValue (digits : List Char) :
    decimalValue digits = placeValue digits := by
  rw [decimalValue, placeValue, Nat.ofDigits_eq_foldr, List.foldr_map, List.foldr_reverse]
  congr 1
  funext value digit
  rw [Nat.cast_id, Nat.mul_comm, Nat.add_comm]

theorem writes_iff {digits : List Char} {number : Nat} :
    Writes digits number ↔
      digits ≠ [] ∧ digits.all isDecimalDigit = true ∧ decimalValue digits = number := by
  rw [List.all_eq_true, decimalValue_eq_placeValue]
  constructor
  · exact fun h => ⟨h.ne_nil, h.isDigit, h.value⟩
  · exact fun ⟨hne, hdigit, hvalue⟩ => ⟨hne, hdigit, hvalue⟩

theorem not_writes_of_plus (rest : List Char) (number : Nat) : ¬ Writes ('+' :: rest) number := by
  intro h
  have hplus := h.isDigit '+' List.mem_cons_self
  cases hplus

/-- The parser accepts exactly the grammar, with the number that the digits write. -/
theorem parseFrameCount?_eq_some_iff {text : String} {frames : Nat} :
    parseFrameCount? text = some frames ↔ IsFrameCount text frames := by
  have hparse (digits : List Char) :
      (if digits ≠ [] ∧ digits.all isDecimalDigit = true ∧ decimalValue digits ≤ maxFrameCount
        then some (decimalValue digits) else none) = some frames ↔
        frames ≤ 0xFFFFFFFF ∧ Writes digits frames := by
    rw [writes_iff]
    constructor
    · intro h
      split at h
      · rename_i hdigits
        cases h
        exact ⟨hdigits.2.2, hdigits.1, hdigits.2.1, rfl⟩
      · cases h
    · rintro ⟨hbound, hne, hall, rfl⟩
      rw [if_pos ⟨hne, hall, hbound⟩]
  rw [parseFrameCount?, IsFrameCount]
  split
  · rename_i rest hplus
    have hnever := not_writes_of_plus rest frames
    simp only [hplus, hnever, false_or, List.cons.injEq, true_and, exists_eq_left']
    exact hparse rest
  · rename_i hnone
    have hnever : ¬ ∃ digits, text.toList = '+' :: digits ∧ Writes digits frames := by
      rintro ⟨digits, hplus, _⟩
      exact hnone digits hplus
    rw [or_iff_left hnever]
    exact hparse text.toList

/-- Every number has digits that write it, and zeros in front of them change nothing. -/
theorem writes_toDigits (number zeros : Nat) :
    Writes (List.replicate zeros '0' ++ Nat.toDigits 10 number) number where
  ne_nil := by simp [Nat.toDigits_ne_nil]
  isDigit := by
    intro c hmem
    rcases List.mem_append.mp hmem with hzero | hdigit
    · rw [List.eq_of_mem_replicate hzero]
      rfl
    · exact Nat.isDigit_of_mem_toDigits (by decide) (by decide) hdigit
  value := by
    have hdigits : placeValue (Nat.toDigits 10 number) = number := by
      have hread : Nat.ofDigitChars 10 (Nat.toDigits 10 number) 0 = number :=
        Nat.ofDigitChars_toDigits (by decide) (by decide)
      rw [← decimalValue_eq_placeValue, decimalValue]
      simpa only [Nat.ofDigitChars, Nat.mul_comm] using hread
    rw [placeValue, List.reverse_append, List.reverse_replicate, List.map_append,
      List.map_replicate]
    exact (Nat.ofDigits_append_replicate_zero _).trans hdigits

theorem isFrameCount_digits {frames : Nat} (h : frames ≤ 0xFFFFFFFF) (zeros : Nat) :
    IsFrameCount (String.ofList (List.replicate zeros '0' ++ (toString frames).toList)) frames ∧
    IsFrameCount
      (String.ofList ('+' :: List.replicate zeros '0' ++ (toString frames).toList)) frames := by
  have hdigits : (toString frames).toList = Nat.toDigits 10 frames := by
    rw [Nat.toString_eq_repr, Nat.repr_eq_ofList_toDigits, String.toList_ofList]
  have hwrites := writes_toDigits frames zeros
  rw [hdigits]
  refine ⟨⟨h, .inl ?_⟩, ⟨h, .inr ⟨_, ?_, hwrites⟩⟩⟩
  · rw [String.toList_ofList]
    exact hwrites
  · rw [String.toList_ofList]
    rfl

end Numerals

/-- The number of frames that the arguments behind the path ask for. -/
inductive Asks : List String → Nat → Prop
  | nothing : Asks [] 60
  | count {text : String} {rest : List String} {frames : Nat} (h : IsFrameCount text frames) :
    Asks (text :: rest) frames

/-- How an error is told: what was being done, and why that failed. -/
def errorLine (context cause : String) : String := "Error: " ++ (context ++ ": " ++ cause) ++ "\n"

/-- The answers to arguments, one rule for each way that a command can go. -/
inductive Answers (files : Files) : List String → Reply → Prop
  | usage :
    Answers files []
      ⟨1, "", "No ROM path provided.\nUsage: retro8080 <rom> [frames]\n"
        ++ "For example: retro8080 assets/roms/space_invaders/space-invaders.rom 120\n"⟩
  | invalidCount {path text : String} {rest : List String}
    (hcount : ∀ frames, ¬ IsFrameCount text frames) :
    Answers files (path :: text :: rest) ⟨1, "", "Invalid frame count '" ++ text ++ "'\n"⟩
  | unreadable {path : String} {rest : List String} {frames : Nat} {cause : ReadError}
    (hasks : Asks rest frames) (hfile : files path = .error cause) :
    Answers files (path :: rest)
      ⟨1, "", errorLine ("Failed to read ROM file '" ++ path ++ "'") cause.message⟩
  | faulted {path : String} {rest : List String} {frames : Nat} {rom : Content}
    {frame : Nat} {fault : Fault} (hasks : Asks rest frames) (hfile : files path = .ok rom)
    (hrun : Emulation.outcome? { frames } rom.bytes {} =
      some (.error (.frameFailed frame fault))) :
    Answers files (path :: rest)
      ⟨1, "", errorLine ("CPU fault during frame " ++ toString frame) fault.message⟩
  | finished {path : String} {rest : List String} {frames : Nat} {rom : Content}
    {board : Board} (hasks : Asks rest frames) (hfile : files path = .ok rom)
    (hrun : Emulation.outcome? { frames } rom.bytes {} = some (.ok board)) :
    Answers files (path :: rest)
      ⟨0, board.cpu.statusLine ++ "\n" ++ board.cpu.flags.statusLine ++ "\n", ""⟩

/-- What is said of a run that has come to something, apart from its log. -/
def report : Except Emulation.Error Board → Reply
  | .error error => .failure ("Error: " ++ error.message ++ "\n")
  | .ok board => .success (board.cpu.statusLine ++ "\n" ++ board.cpu.flags.statusLine ++ "\n")

@[simp] theorem Reply.after_empty (reply : Reply) : reply.after "" = reply := by
  simp [after]

/-- A logger that shows the records down to errors shows errors only. -/
theorem Logger.errorsOnly_ofLevel_error : (ofLevel .error).ErrorsOnly := by
  intro record hshows
  have hshown : record.level.shownAt .error = true := hshows
  cases hlevel : record.level with
  | error => rfl
  | warn | info | debug | trace => rw [hlevel] at hshown; cases hshown

theorem Logger.ErrorsOnly.filter_shows {logger : Logger} (h : logger.ErrorsOnly)
    (records : List Record) : records.filter logger.shows = [] := by
  rw [List.filter_eq_nil_iff]
  intro record _ hshows
  exact record.level_ne_error (h record hshows)

section Replies

variable {files : Files} {args rest : List String} {path : String} {frames : Nat} {reply : Reply}

theorem parse_of_asks (h : Asks rest frames) (path : String) :
    parse (path :: rest) = .ok { path, config := { frames } } := by
  cases h with
  | nothing => rfl
  | count hcount =>
    rw [← parseFrameCount?_eq_some_iff] at hcount
    simp only [parse, hcount]

theorem respond_of_asks (h : Asks rest frames) :
    respond (path :: rest) files = perform { path, config := { frames } } files := by
  funext logger
  rw [respond, parse_of_asks h]

theorem respond_of_invalidCount {text : String} (h : ∀ frames, ¬ IsFrameCount text frames)
    (logger : Logger) :
    respond (path :: text :: rest) files logger =
      .failure ("Invalid frame count '" ++ text ++ "'\n") := by
  have hnone : parseFrameCount? text = none := by
    rw [Option.eq_none_iff_forall_ne_some]
    intro frames hsome
    exact h frames (parseFrameCount?_eq_some_iff.mp hsome)
  simp only [respond, parse, hnone]
  rfl

/-- What stands behind the path asks for some number of frames, unless it begins with a text
that is no such number. -/
theorem exists_asks_or (rest : List String) :
    (∃ frames, Asks rest frames) ∨
      ∃ text later, rest = text :: later ∧ ∀ frames, ¬ IsFrameCount text frames := by
  cases rest with
  | nil => exact .inl ⟨60, .nothing⟩
  | cons text later =>
    by_cases hcount : ∃ frames, IsFrameCount text frames
    · obtain ⟨frames, h⟩ := hcount
      exact .inl ⟨frames, .count h⟩
    · exact .inr ⟨text, later, rfl, not_exists.mp hcount⟩

/-- The log of a request begins with its path and goes on with what the run tells it. -/
theorem exists_records_perform (request : Request) (files : Files) :
    ∃ later : List Record, ∀ result,
      fileOutcome? request.config files request.path = some result →
        ∀ logger : Logger, perform request files logger = (report result).after
          (logger.write ((.playing request.path :: later).filter logger.shows)) := by
  obtain ⟨later, hlater⟩ :=
    Emulation.exists_records_runFile request.config files request.path
  refine ⟨later, fun result hresult logger => ?_⟩
  have hkept := ({ shows := logger.shows } : Log).addAll_eq (.playing request.path :: later)
  have hadd : ({ shows := logger.shows } : Log).addAll (.playing request.path :: later) =
      (({ shows := logger.shows } : Log).add (.playing request.path)).addAll later := rfl
  rw [hadd] at hkept
  rw [perform, hlater, hkept, hresult]
  cases result <;> simp [report]

/-- A run that is asked for is reported, after what the logger shows of its records. -/
theorem exists_records_of_asks (hasks : Asks rest frames) {result : Except Emulation.Error Board}
    (hresult : fileOutcome? { frames } files path = some result) :
    ∃ records : List Record,
      (∀ named behind count, path :: rest = named :: behind → Asks behind count →
        records.head? = some (.playing named)) ∧
      ∀ logger : Logger, respond (path :: rest) files logger =
        (report result).after (logger.write (records.filter logger.shows)) := by
  obtain ⟨later, hlater⟩ := exists_records_perform { path, config := { frames } } files
  refine ⟨.playing path :: later, ?_, fun logger => ?_⟩
  · rintro named _ count ⟨⟩ _
    rfl
  · rw [respond_of_asks hasks]
    exact hlater result hresult logger

/-- A rule gives the answer, and before it stands what the logger shows of some records that
are the same for every logger. Where there is a run they begin with its path. -/
theorem exists_records_respond (h : Answers files args reply) :
    ∃ records : List Record,
      (∀ path rest frames, args = path :: rest → Asks rest frames →
        records.head? = some (.playing path)) ∧
      ∀ logger : Logger,
        respond args files logger = reply.after (logger.write (records.filter logger.shows)) := by
  cases h with
  | usage =>
    refine ⟨[], nofun, fun logger => ?_⟩
    rw [List.filter_nil, logger.write_nil, Reply.after_empty]
    rfl
  | invalidCount hcount =>
    refine ⟨[], ?_, fun logger => ?_⟩
    · rintro path _ frames ⟨⟩ (_ | hcounted)
      exact absurd hcounted (hcount frames)
    · rw [List.filter_nil, logger.write_nil, Reply.after_empty, respond_of_invalidCount hcount]
      rfl
  | unreadable hasks hfile =>
    exact exists_records_of_asks hasks (Emulation.fileOutcome?_of_error hfile)
  | faulted hasks hfile hrun | finished hasks hfile hrun =>
    exact exists_records_of_asks hasks ((Emulation.fileOutcome?_of_ok hfile).trans hrun)

theorem respond_of_answers {logger : Logger} (hlogger : logger.ErrorsOnly)
    (h : Answers files args reply) : respond args files logger = reply := by
  obtain ⟨records, _, hrecords⟩ := exists_records_respond h
  rw [hrecords, hlogger.filter_shows, logger.write_nil, Reply.after_empty]

/-- Some rule always applies. -/
theorem exists_answers (files : Files) (args : List String) :
    ∃ reply, Answers files args reply := by
  cases args with
  | nil => exact ⟨_, .usage⟩
  | cons path rest =>
    rcases exists_asks_or rest with ⟨frames, hasks⟩ | ⟨text, later, rfl, hcount⟩
    · cases hfile : files path with
      | error cause => exact ⟨_, .unreadable hasks hfile⟩
      | ok rom =>
        obtain ⟨result, hrun⟩ := Emulation.exists_outcome? frames rom
        cases result with
        | ok board => exact ⟨_, .finished hasks hfile hrun⟩
        | error error =>
          obtain ⟨frame, fault, rfl⟩ := Emulation.exists_frameFailed_of_outcome? hrun
          exact ⟨_, .faulted hasks hfile hrun⟩
    · exact ⟨_, .invalidCount hcount⟩

theorem respond_eq_iff_answers {logger : Logger} (hlogger : logger.ErrorsOnly) :
    respond args files logger = reply ↔ Answers files args reply := by
  constructor
  · rintro rfl
    obtain ⟨reply, hanswers⟩ := exists_answers files args
    rwa [respond_of_answers hlogger hanswers]
  · exact respond_of_answers hlogger

/-- What a rule has to say is said on one of the outputs. -/
theorem Answers.outputs (h : Answers files args reply) :
    reply.exitCode = 0 ∧ reply.stderr = "" ∨ reply.exitCode = 1 ∧ reply.stdout = "" := by
  cases h with
  | usage | invalidCount | unreadable | faulted => exact .inr ⟨rfl, rfl⟩
  | finished => exact .inl ⟨rfl, rfl⟩

end Replies

/-- The answer to any arguments and any files is the one that the rules give, where the logger
shows nothing but errors. Any other logger puts its own text before what the second output has.
The records that it may show are the same for all of them, and begin with the path where there
is a run. Every number of 32 bits is a number of frames that one can ask for, with zeros and a
plus sign before it or without. A command that fails writes nothing to its first output, and one
that succeeds nothing of its own to its second, and neither further arguments nor other files
than the named one have a part in it. -/
theorem replies_follow_their_rules (files : Files) :
    (∀ logger : Logger, logger.ErrorsOnly → ∀ args reply,
      respond args files logger = reply ↔ Answers files args reply) ∧
    (∀ args reply, Answers files args reply → ∃ records : List Record,
      (∀ path rest frames, args = path :: rest → Asks rest frames →
        records.head? = some (.playing path)) ∧
      ∀ logger : Logger,
        respond args files logger = reply.after (logger.write (records.filter logger.shows))) ∧
    (∀ frames ≤ 0xFFFFFFFF, ∀ zeros,
      IsFrameCount (String.ofList (List.replicate zeros '0' ++ (toString frames).toList)) frames ∧
      IsFrameCount
        (String.ofList ('+' :: List.replicate zeros '0' ++ (toString frames).toList)) frames) ∧
    (∀ args (logger : Logger),
      (respond args files logger).exitCode = 0 ∧
        (logger.ErrorsOnly → (respond args files logger).stderr = "") ∨
      (respond args files logger).exitCode = 1 ∧ (respond args files logger).stdout = "") ∧
    (∀ path text rest, respond (path :: text :: rest) files = respond [path, text] files) ∧
    ∀ path rest, respond (path :: rest) (fun _ => files path) = respond (path :: rest) files := by
  refine ⟨?_, ?_, ?_, ?_, ?_, ?_⟩
  · exact fun logger hlogger args reply => respond_eq_iff_answers hlogger
  · exact fun args reply hanswers => exists_records_respond hanswers
  · exact fun frames hbound zeros => isFrameCount_digits hbound zeros
  · intro args logger
    obtain ⟨reply, hanswers⟩ := exists_answers files args
    obtain ⟨records, _, hrecords⟩ := exists_records_respond hanswers
    rcases hanswers.outputs with ⟨hcode, hstderr⟩ | ⟨hcode, hstdout⟩
    · refine .inl ⟨?_, fun hlogger => ?_⟩
      · rw [hrecords]
        exact hcode
      · rw [respond_of_answers hlogger hanswers]
        exact hstderr
    · rw [hrecords]
      exact .inr ⟨hcode, hstdout⟩
  · intro path text rest
    rfl
  · intro path rest
    rcases exists_asks_or rest with ⟨frames, hasks⟩ | ⟨text, later, rfl, hcount⟩
    · rw [respond_of_asks hasks, respond_of_asks hasks]
      rfl
    · funext logger
      rw [respond_of_invalidCount hcount, respond_of_invalidCount hcount]

/-- An image of one instruction, NOP, and no other file. -/
def single : Files := fun name =>
  if name = "nop.rom" then .ok { bytes := #[0x00] } else .error .notFound

-- A logger that goes down to INFO shows which file is played and what was loaded.
example : (respond ["nop.rom", "0"] single (.ofLevel .info)).stderr =
    "INFO Playing ROM path: 'nop.rom'\nINFO Loaded 1 byte ROM, running 0 frames\n" := by
  rfl

/-- The largest number of 32 bits is a number of frames and the next one is not, and whether
it is one matters before whether the file is there. -/
theorem replies_follow_their_rules_of_single :
    (Logger.ofLevel .error).ErrorsOnly ∧
    IsFrameCount "+004294967295" 4294967295 ∧
    respond ["none.rom", "4294967296"] single (.ofLevel .error) =
      ⟨1, "", "Invalid frame count '4294967296'\n"⟩ ∧
    respond ["none.rom", "007"] single (.ofLevel .error) =
      ⟨1, "", "Error: Failed to read ROM file 'none.rom': "
        ++ "No such file or directory (os error 2)\n"⟩ ∧
    respond ["nop.rom", "+0", "1"] single (.ofLevel .error) =
      ⟨0, "A=00 B=00 C=00 D=00 E=00 H=00 L=00 SP=0000 PC=0000\nZ=0 S=0 P=0 CY=0 AC=0\n", ""⟩ := by
  obtain ⟨hrules, _, hcounts, _⟩ := replies_follow_their_rules single
  have hlogger := Logger.errorsOnly_ofLevel_error
  have htooLarge (frames : Nat) : ¬ IsFrameCount "4294967296" frames := by
    have hnone : parseFrameCount? "4294967296" = none := rfl
    rw [← parseFrameCount?_eq_some_iff, hnone]
    simp
  have hseven : Asks ["007"] 7 := .count (hcounts 7 (by decide) 2).1
  have hzero : Asks ["+0", "1"] 0 := .count (hcounts 0 (by decide) 0).2
  have hunreadable : Answers single ["none.rom", "007"] _ := .unreadable hseven rfl
  obtain ⟨start, records, hstart⟩ :
      ∃ start records, Emulation.coldStart { frames := 0 } #[0x00] = some (start, records) :=
    ⟨_, _, rfl⟩
  have hrun : Emulation.outcome? { frames := 0 } #[0x00] {} = some (.ok start) :=
    Emulation.outcome?_of_coldStart hstart {}
  have hfinished : Answers single ["nop.rom", "+0", "1"] _ := .finished hzero rfl hrun
  refine ⟨hlogger, (hcounts 4294967295 (by decide) 2).2, ?_, ?_, ?_⟩
  · exact (hrules _ hlogger _ _).mpr (.invalidCount htooLarge)
  · rw [(hrules _ hlogger _ _).mpr hunreadable]
    rfl
  · have hreset : start.cpu.toCore = {} := by rw [Emulation.coldStart_eq_some hstart]
    rw [(hrules _ hlogger _ _).mpr hfinished, hreset]
    rfl

end CommandLine

end Arcade8080
