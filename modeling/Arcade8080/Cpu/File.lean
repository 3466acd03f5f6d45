import Arcade8080.Cpu
import Arcade8080.Files
import Arcade8080.Text.Quoted

/-!
Loading the processor's memory from a file. A file that cannot be read leaves
the processor as it was.
-/

namespace Arcade8080.Cpu

/-- The file that could not be loaded, and why. -/
structure LoadError where
  path : String
  cause : ReadError
  deriving DecidableEq

def LoadError.message (error : LoadError) : String :=
  "failed to load ROM " ++ Text.Quoted.quote error.path ++ ": " ++ error.cause.message

/-- Loads the image in a file, as `loadImage` does, and gives its size. -/
def loadFile (cpu : Cpu) (files : Files) (path : String) :
    Option (Except LoadError (Nat × Cpu × List Record)) :=
  match files path with
  | .error cause => some (.error ⟨path, cause⟩)
  | .ok image => (cpu.loadImage image.bytes).map fun loaded => .ok (image.bytes.size, loaded)

end Arcade8080.Cpu
