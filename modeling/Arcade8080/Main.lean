import Arcade8080.CommandLine

/-!
The program itself: finds out what the named file holds and what is to be logged,
and leaves the reply of the command line.
-/

namespace Arcade8080.Main

/-- What the system said about a file that could not be read. -/
def readError : IO.Error → ReadError
  | .alreadyExists _ code reason | .invalidArgument _ code reason
  | .permissionDenied _ code reason | .resourceExhausted _ code reason
  | .inappropriateType _ code reason | .noSuchThing _ code reason => ⟨reason, code.toNat⟩
  | .interrupted _ code reason | .noFileOrDirectory _ code reason => ⟨reason, code.toNat⟩
  | .otherError code reason | .resourceBusy code reason | .resourceVanished code reason
  | .unsupportedOperation code reason | .hardwareFault code reason
  | .unsatisfiedConstraints code reason | .illegalOperation code reason
  | .protocolError code reason | .timeExpired code reason => ⟨reason, code.toNat⟩
  | .unexpectedEof => ⟨"Unexpected end of file", 0⟩
  | .userError reason => ⟨reason, 0⟩

def readFile (path : String) : IO (Except ReadError Content) := do
  try
    let file ← IO.FS.Handle.mk path .read
    let bytes ← file.readBinToEnd
    return Content.ofBytes (bytes.data.map (·.toBitVec))
  catch error => return .error (readError error)

/-- The logger that a setting asks for by the name of a level. -/
def loggerOf (setting : Option String) : CommandLine.Logger :=
  let level? (name : String) : Option Level :=
    [Level.error, .warn, .info, .debug, .trace].find? fun level => level.name = name.toUpper
  .ofLevel ((setting.bind level?).getD .error)

end Arcade8080.Main

open Arcade8080 in
def main (args : List String) : IO UInt32 := do
  let content ← match CommandLine.parse args with
    | .ok request => Main.readFile request.path
    | .error _ => pure (.error .notFound)
  let logger := Main.loggerOf (← IO.getEnv "RUST_LOG")
  let reply := CommandLine.respond args (fun _ => content) logger
  IO.print reply.stdout
  IO.eprint reply.stderr
  return reply.exitCode.toUInt32
