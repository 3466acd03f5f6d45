import Arcade8080.Word

/-!
The ports of the arcade board: two input latches, two sound latches, and the
shift register that draws sprites at any bit position. The register holds the
last two bytes written to port 4, the later one on top, and port 3 reads eight
of its bits, as many below the top as port 2 asked for.
-/

namespace Arcade8080.Board

structure Ports where
  /-- Coin, start and controls of the first player. -/
  in1 : Byte
  /-- Switches and controls of the second player. -/
  in2 : Byte
  out3 : Byte := 0
  out5 : Byte := 0
  shiftRegister : Word := 0
  shiftOffset : Octal := .ofNat 0
  deriving DecidableEq

namespace Ports

/-- Bit 3 of the first latch is wired to read as 1. -/
def ofLatches (in1 in2 : Byte) : Ports := { in1 := in1 ||| 0x08, in2 }

/-- Ports that have no input read as 0. -/
def read (ports : Ports) (port : Byte) : Byte :=
  match port.toNat with
  | 1 => ports.in1
  | 2 => ports.in2
  | 3 => (ports.shiftRegister >>> (8 - ports.shiftOffset.val)).setWidth 8
  | _ => 0

/-- Ports that have no output, the watchdog among them, ignore the value. -/
def write (ports : Ports) (port value : Byte) : Ports :=
  match port.toNat with
  | 2 => { ports with shiftOffset := .ofNat value.toNat }
  | 3 => { ports with out3 := value }
  | 4 => { ports with shiftRegister := Word.ofBytes value (Word.high ports.shiftRegister) }
  | 5 => { ports with out5 := value }
  | _ => ports

end Ports

end Arcade8080.Board
