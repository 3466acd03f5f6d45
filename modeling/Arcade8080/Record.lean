import Arcade8080.Window
import Arcade8080.Operation.Decode
import Arcade8080.Operation.Mnemonic
import Arcade8080.Text.Hex

/-!
What the machine reports while it works. A record holds the facts; its text is
made only when someone reads it.
-/

namespace Arcade8080

open Text

/-- How much a record matters, the most severe first. -/
inductive Level where
  | error | warn | info | debug | trace
  deriving DecidableEq

namespace Level

def rank : Level → Nat
  | .error => 1
  | .warn => 2
  | .info => 3
  | .debug => 4
  | .trace => 5

def name : Level → String
  | .error => "ERROR"
  | .warn => "WARN"
  | .info => "INFO"
  | .debug => "DEBUG"
  | .trace => "TRACE"

/-- Whether a log that is open down to `threshold` shows this level. -/
def shownAt (level threshold : Level) : Bool := level.rank ≤ threshold.rank

end Level

inductive Record where
  /-- A store inside memory but outside the window, which was dropped. -/
  | rejectedStore (value : Byte) (addr : Nat) (window : Window)
  /-- An unassigned opcode, which was stepped over. -/
  | unassignedOpcode (opcode : Byte) (pc : Word)
  /-- An image of `count` bytes now starts a memory of `size` bytes. -/
  | imageLoaded (count size : Nat)
  /-- An instruction, before it has any effect. -/
  | executing (pc : Word) (opcode : Byte)
  /-- A halt, which does not stop the processor. -/
  | haltPassed (pc : Word)
  /-- A request that took the place of one not yet delivered. -/
  | requestReplaced (former latter : Restart)
  /-- A request that came due while interrupts were disabled. -/
  | requestDropped (number : Restart)
  /-- A request that was delivered; `pc` is where the program will resume. -/
  | requestTaken (number : Restart) (pc : Word)
  /-- The file that a run is to be made of. -/
  | playing (path : String)
  /-- A run that is about to begin. -/
  | runStarting (romSize frames : Nat)
  deriving DecidableEq

namespace Record

def level : Record → Level
  | .rejectedStore .. => .warn
  | .unassignedOpcode .. | .imageLoaded .. => .debug
  | .playing _ | .runStarting .. => .info
  | .executing .. | .haltPassed .. => .trace
  | .requestReplaced .. | .requestDropped .. | .requestTaken .. => .trace

def text : Record → String
  | .rejectedStore value addr window =>
    "Rejected write of 0x" ++ Hex.fixed 2 value.toNat ++ " to 0x" ++ Hex.padded 4 addr
      ++ " (writable window 0x" ++ Hex.padded 4 window.start
      ++ "..0x" ++ Hex.padded 4 window.stop ++ ")"
  | .unassignedOpcode opcode pc =>
    "Invalid opcode 0x" ++ Hex.fixed 2 opcode.toNat ++ " at 0x" ++ Hex.fixed 4 pc.toNat
      ++ ", skipped"
  | .imageLoaded count size =>
    "Loaded " ++ toString count ++ " byte image into " ++ toString size ++ " bytes of memory"
  | .executing pc opcode =>
    Hex.fixed 4 pc.toNat ++ ": " ++ Hex.fixed 2 opcode.toNat ++ " "
      ++ (Operation.decode opcode).mnemonic
  | .haltPassed pc => "HLT at 0x" ++ Hex.fixed 4 pc.toNat ++ " treated as NOP"
  | .requestReplaced former latter =>
    "RST " ++ toString former.val ++ " replaced by RST " ++ toString latter.val
      ++ " before delivery"
  | .requestDropped number =>
    "Dropped RST " ++ toString number.val ++ ": interrupts disabled"
  | .requestTaken number pc =>
    "Took RST " ++ toString number.val ++ " from PC=0x" ++ Hex.fixed 4 pc.toNat
  | .playing path => "Playing ROM path: '" ++ path ++ "'"
  | .runStarting romSize frames =>
    "Loaded " ++ toString romSize ++ " byte ROM, running " ++ toString frames ++ " frames"

/-- The record as one line of a log. -/
def line (record : Record) : String := record.level.name ++ " " ++ record.text

end Record

end Arcade8080
