import Arcade8080.Board
import Arcade8080.Files

/-!
Running a game for some number of frames with nobody watching. A run ends with
the board as its last frame left it, or with the first frame that failed. It has no
end where it is to have more memory than there can be.
-/

namespace Arcade8080.Emulation

structure Config where
  frames : Nat := 60
  /-- About 2 MHz over 120 half frames a second, at seven cycles a step. -/
  halfFrame : Nat := 2400
  /-- 8 KiB of ROM, 1 KiB of work RAM and 7 KiB of video RAM. -/
  memorySize : Size := 0x4000
  in1 : Byte := 0
  in2 : Byte := 0

inductive Error where
  /-- A frame did not get to its end; frames count from 0. -/
  | frameFailed (frame : Nat) (cause : Fault)
  | romUnreadable (path : String) (cause : ReadError)
  deriving DecidableEq

namespace Error

/-- What was being done. -/
def context : Error → String
  | .frameFailed frame _ => "CPU fault during frame " ++ toString frame
  | .romUnreadable path _ => "Failed to read ROM file '" ++ path ++ "'"

/-- Why it failed. -/
def cause : Error → String
  | .frameFailed _ fault => fault.message
  | .romUnreadable _ error => error.message

def message (error : Error) : String := error.context ++ ": " ++ error.cause

end Error

/-- Runs `count` frames, of which the first has the number `number`. -/
def runFrames (board : Board) (log : Log) (number count : Nat) : Except Error Board × Log :=
  match count with
  | 0 => (.ok board, log)
  | count + 1 =>
    match board.frame log with
    | ⟨board, log, none⟩ => runFrames board log (number + 1) count
    | ⟨_, log, some fault⟩ => (.error (.frameFailed number fault), log)

/-- The board on which a run of an image begins. -/
def coldStart (config : Config) (rom : Array Byte) : Option (Board × List Record) := do
  let ports := Board.Ports.ofLatches config.in1 config.in2
  let board ← Board.ofMemorySize config.memorySize ports config.halfFrame
  board.load rom

/-- Runs an image from a cold start. -/
def run (config : Config) (rom : Array Byte) (log : Log) : Option (Except Error Board × Log) := do
  let (board, records) ← coldStart config rom
  let log := (log.addAll records).add (.runStarting rom.size config.frames)
  return runFrames board log 0 config.frames

/-- Runs the image in a file. -/
def runFile (config : Config) (files : Files) (path : String) (log : Log) :
    Option (Except Error Board × Log) :=
  match files path with
  | .error cause => some (.error (.romUnreadable path cause), log)
  | .ok rom => run config rom.bytes log

end Arcade8080.Emulation
