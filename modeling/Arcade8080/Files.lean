import Arcade8080.Memory

/-!
Reading files, seen from a program that is handed them. What a name holds, or
why it cannot be read, is a function that the outside provides.
-/

namespace Arcade8080

/-- Why a file could not be read, in the words and the number of the system. -/
structure ReadError where
  reason : String
  code : Nat
  deriving DecidableEq

namespace ReadError

def message (error : ReadError) : String :=
  error.reason ++ " (os error " ++ toString error.code ++ ")"

def notFound : ReadError := ⟨"No such file or directory", 2⟩

def tooLarge : ReadError := ⟨"File too large", 27⟩

end ReadError

/-- What was read from a file, which is no more than one allocation has. -/
structure Content where
  bytes : Array Byte
  fits : bytes.size ≤ Memory.limit := by decide

def Content.ofBytes (bytes : Array Byte) : Except ReadError Content :=
  if fits : bytes.size ≤ Memory.limit then .ok { bytes, fits } else .error .tooLarge

/-- What there is to read under each file name. -/
abbrev Files := String → Except ReadError Content

end Arcade8080
