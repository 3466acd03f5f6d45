import Arcade8080.Operation.Decode

/-!
An opcode with the bytes that follow it. Bytes that the operation does not use
may hold anything.
-/

namespace Arcade8080

structure Instruction where
  opcode : Byte
  /-- The byte after the opcode. -/
  lo : Byte := 0
  /-- The byte after that. -/
  hi : Byte := 0
  deriving DecidableEq

namespace Instruction

/-- An instruction whose two operand bytes hold a word, low byte first. -/
def ofWord (opcode : Byte) (operand : Word) : Instruction :=
  ⟨opcode, Word.low operand, Word.high operand⟩

def word (instruction : Instruction) : Word := Word.ofBytes instruction.hi instruction.lo

/-- The number that the operand bytes stand for. -/
theorem toNat_word (instruction : Instruction) :
    instruction.word.toNat = instruction.hi.toNat * 256 + instruction.lo.toNat :=
  Word.toNat_ofBytes instruction.hi instruction.lo

def operation (instruction : Instruction) : Operation := .decode instruction.opcode

end Instruction

end Arcade8080
