import Arcade8080.Board.Ports
import Arcade8080.Cpu
import Arcade8080.Log

/-!
The arcade board: the processor, the ports, and the video timing that asks for
restart 1 in the middle of each frame and for restart 2 at its end. A frame is
a fixed number of steps.
-/

namespace Arcade8080

structure Board where
  cpu : Cpu
  ports : Board.Ports
  /-- How many steps run before each of the two interrupt requests of a frame. -/
  halfFrame : Nat

namespace Board

def videoStart : Nat := 0x2400

def videoSize : Nat := 0x1C00

/-- A board with blank memory. Images that are loaded later get at least as much. -/
def ofMemorySize (memorySize : Size) (ports : Ports) (halfFrame : Nat) : Option Board :=
  let cpu := Cpu.ofConfig { window := .arcade, minimumSize := memorySize }
  (cpu.allocate memorySize.toNat).map fun cpu => { cpu, ports, halfFrame }

/-- Puts an image at address 0 and starts execution there. The ports stay. -/
def load (board : Board) (image : Array Byte) : Option (Board × List Record) :=
  (board.cpu.loadImage image).map fun (cpu, records) => ({ board with cpu := cpu.reset }, records)

/-- Does what the ports do when an instruction addresses them: A takes the byte
that was read, or a port takes the byte that was sent. -/
def service (board : Board) : StepOutcome → Board
  | .executed _ _ (some (.input port)) =>
    { board with cpu.registers.a := board.ports.read port }
  | .executed _ _ (some (.output port value)) =>
    { board with ports := board.ports.write port value }
  | _ => board

/-- One step of the processor, and what the ports do about it. -/
def step (board : Board) : Attempt Board StepOutcome :=
  match board with
  | ⟨cpu, ports, halfFrame⟩ =>
    match cpu.step with
    | ⟨.ok outcome, cpu, records⟩ =>
      ⟨.ok outcome, service ⟨cpu, ports, halfFrame⟩ outcome, records⟩
    | ⟨.error fault, cpu, records⟩ => ⟨.error fault, ⟨cpu, ports, halfFrame⟩, records⟩

def interrupt (board : Board) (value : Byte) : Board × List Record :=
  let (cpu, records) := board.cpu.interrupt value
  ({ board with cpu }, records)

/-- A board during a run, with the log of the run so far. -/
structure Progress where
  board : Board
  log : Log := {}
  /-- The fault that ended the run, if one did. -/
  fault : Option Fault := none

/-- Steps until `count` steps are done or one fails. -/
def advance (board : Board) (log : Log) (count : Nat) : Progress :=
  match count with
  | 0 => { board, log }
  | count + 1 =>
    match board.step with
    | ⟨.ok _, board, records⟩ => advance board (log.addAll records) count
    | ⟨.error fault, board, records⟩ =>
      { board, log := log.addAll records, fault := some fault }

/-- Half a frame and the request at its end, which a fault prevents. -/
def half (board : Board) (log : Log) (request : Byte) : Progress :=
  match board.advance log board.halfFrame with
  | ⟨board, log, some fault⟩ => ⟨board, log, some fault⟩
  | ⟨board, log, none⟩ =>
    let (board, records) := board.interrupt request
    { board, log := log.addAll records }

/-- One video frame, with a request in the middle and one at the end. -/
def frame (board : Board) (log : Log) : Progress :=
  match board.half log 1 with
  | ⟨board, log, some fault⟩ => ⟨board, log, some fault⟩
  | ⟨board, log, none⟩ => board.half log 2

/-- What a renderer draws. -/
def videoRam (board : Board) : Except Fault (Array Byte) :=
  board.cpu.memory.slice videoStart videoSize

end Board

end Arcade8080
