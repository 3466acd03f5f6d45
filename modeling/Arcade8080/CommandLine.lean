import Arcade8080.Emulation
import Arcade8080.StatusLine

/-!
The command line: a ROM file and, if wanted, a number of frames. The number is
checked before the file is looked at, and arguments after it are ignored. Arguments
are Unicode texts; a process that is given anything else ends before it comes to what
is described here.

What is logged on the way goes to the second output, before anything else. Which
records that are and how they are written is up to a logger, which the environment
of the process sets up.
-/

namespace Arcade8080.CommandLine

/-- What a command asks for. -/
structure Request where
  path : String
  config : Emulation.Config

inductive Refusal where
  | noPath
  | invalidFrameCount (text : String)
  deriving DecidableEq

def Refusal.message : Refusal → String
  | .noPath =>
    "No ROM path provided.\nUsage: retro8080 <rom> [frames]\n"
      ++ "For example: retro8080 assets/roms/space_invaders/space-invaders.rom 120\n"
  | .invalidFrameCount text => "Invalid frame count '" ++ text ++ "'\n"

def isDecimalDigit (c : Char) : Bool := '0' ≤ c && c ≤ '9'

/-- The number that decimal digits stand for, the most significant first. -/
def decimalValue (digits : List Char) : Nat :=
  digits.foldl (fun value digit => value * 10 + (digit.toNat - '0'.toNat)) 0

/-- The largest number of 32 bits. -/
def maxFrameCount : Nat := 0xFFFFFFFF

/-- One optional plus sign, then decimal digits, for a number of 32 bits. -/
def parseFrameCount? (text : String) : Option Nat :=
  let digits :=
    match text.toList with
    | '+' :: rest => rest
    | rest => rest
  if digits ≠ [] ∧ digits.all isDecimalDigit ∧ decimalValue digits ≤ maxFrameCount then
    some (decimalValue digits)
  else none

def parse : List String → Except Refusal Request
  | [] => .error .noPath
  | [path] => .ok { path, config := {} }
  | path :: count :: _ =>
    match parseFrameCount? count with
    | none => .error (.invalidFrameCount count)
    | some frames => .ok { path, config := { frames } }

/-- What a log does with its records. -/
structure Logger where
  shows : Record → Bool
  /-- The text that is written of the records that are shown, oldest first. -/
  write : List Record → String
  write_nil : write [] = ""

namespace Logger

/-- A logger that shows the records down to some level, each on a line of its own. -/
def ofLevel (threshold : Level) : Logger where
  shows record := record.level.shownAt threshold
  write records := String.join (records.map fun record => record.line ++ "\n")
  write_nil := rfl

/-- Nothing but errors is shown, which is how a log is set up unless something else is
asked for. -/
def ErrorsOnly (logger : Logger) : Prop :=
  ∀ record, logger.shows record = true → record.level = .error

end Logger

/-- What the process leaves: its exit code and what it wrote. -/
structure Reply where
  exitCode : Nat
  stdout : String
  stderr : String
  deriving DecidableEq

namespace Reply

def success (text : String) : Reply := ⟨0, text, ""⟩

def failure (text : String) : Reply := ⟨1, "", text⟩

/-- How a process ends that asks for more memory than there can be. The place in the program
that it also names is left out. -/
def overflow : Reply := ⟨101, "", "capacity overflow\n"⟩

/-- The reply after something else has been written to the second output. -/
def after (logged : String) (reply : Reply) : Reply :=
  { reply with stderr := logged ++ reply.stderr }

end Reply

/-- Runs a request and reports the processor it ends with. -/
def perform (request : Request) (files : Files) (logger : Logger) : Reply :=
  let log := ({ shows := logger.shows } : Log).add (.playing request.path)
  match Emulation.runFile request.config files request.path log with
  | none => .overflow
  | some (.error error, log) =>
    (Reply.failure ("Error: " ++ error.message ++ "\n")).after (logger.write log.kept.toList)
  | some (.ok board, log) =>
    (Reply.success (board.cpu.statusLine ++ "\n" ++ board.cpu.flags.statusLine ++ "\n")).after
      (logger.write log.kept.toList)

def respond (args : List String) (files : Files) (logger : Logger) : Reply :=
  match parse args with
  | .error refusal => .failure refusal.message
  | .ok request => perform request files logger

end Arcade8080.CommandLine
