import Arcade8080.Operation

/-!
What a step reports to whoever runs the processor.
-/

namespace Arcade8080

/-- A port that an instruction reads or writes. Devices are not the processor's:
IN leaves A alone until whoever runs the processor fills it. -/
inductive PortAccess where
  | input (port : Byte)
  | output (port value : Byte)
  deriving DecidableEq

/-- What a step did: an instruction, or a restart in place of one. -/
inductive StepOutcome where
  | executed (opcode : Byte) (length : Nat) (port : Option PortAccess)
  | interrupted (number : Restart)
  deriving DecidableEq

end Arcade8080
