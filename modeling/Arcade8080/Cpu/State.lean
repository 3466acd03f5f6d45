import Arcade8080.Core
import Arcade8080.Memory

/-!
The processor with its memory and the interrupt request it may have pending.
-/

namespace Arcade8080

structure Cpu.Config where
  window : Window := .arcade
  /-- The least size of the memory made for an image. -/
  minimumSize : Size := 0
  deriving DecidableEq

structure Cpu extends Core where
  pending : Option Restart := none
  memory : Memory := { fits := Memory.fits_none }
  /-- As given when the processor was made; the window of `memory` may differ. -/
  config : Cpu.Config := {}

namespace Cpu

/-- A processor with zeroed registers and no memory. -/
def ofConfig (config : Config) : Cpu :=
  { memory := { window := config.window, fits := Memory.fits_none }, config }

/-- Zeroes all but memory. -/
def reset (cpu : Cpu) : Cpu := { cpu with toCore := {}, pending := none }

/-- Makes a memory of zeros, where there can be one of that size. -/
def allocate (cpu : Cpu) (size : Nat) : Option Cpu :=
  (cpu.memory.allocate size).map fun memory => { cpu with memory }

/-- Makes a memory that starts with an image. -/
def loadImage (cpu : Cpu) (image : Array Byte) : Option (Cpu × List Record) :=
  (cpu.memory.loadImage image cpu.config.minimumSize.toNat).map fun memory =>
    ({ cpu with memory }, [.imageLoaded image.size memory.size])

/-- Requests a restart for the next step, in place of one still pending. The low
three bits of `value` are its number. -/
def interrupt (cpu : Cpu) (value : Byte) : Cpu × List Record :=
  let number := Octal.ofNat value.toNat
  let records :=
    match cpu.pending with
    | none => []
    | some former => [.requestReplaced former number]
  ({ cpu with pending := some number }, records)

end Cpu

end Arcade8080
