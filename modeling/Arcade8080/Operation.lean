import Arcade8080.Registers
import Arcade8080.Flags

/-!
The instruction set as operations and their operands. Bytes that follow an
opcode are not part of the operation, only their number is.
-/

namespace Arcade8080

/-- Where a byte operand lives: in a register, or in memory at HL. -/
inductive Operand where
  | register (name : Register)
  | memory
  deriving DecidableEq

/-- Where a word operand lives. -/
inductive WideOperand where
  | pair (name : Pair)
  | sp
  deriving DecidableEq

/-- What the stack instructions move: a pair, or A and the flags. -/
inductive StackOperand where
  | pair (name : Pair)
  | psw
  deriving DecidableEq

/-- The pairs that address memory for STAX and LDAX. -/
inductive Pointer where
  | bc | de
  deriving DecidableEq

/-- Each condition looks at one flag, in pairs of unset and set. -/
inductive Condition where
  | nz | z | nc | c | po | pe | p | m
  deriving DecidableEq

/-- What the arithmetic unit does with A and an operand. -/
inductive Arithmetic where
  | add | adc | sub | sbb | ana | xra | ora | cmp
  deriving DecidableEq

inductive Rotation where
  | rlc | rrc | ral | rar
  deriving DecidableEq

/-- The number of a restart, which names the handler that it enters. -/
abbrev Restart := Octal

/-- Handlers lie eight bytes apart from address 0 up. -/
def Restart.address (number : Restart) : Word := BitVec.ofNat 16 (8 * number.val)

theorem Restart.toNat_address (number : Restart) : number.address.toNat = 8 * number.val := by
  have := number.isLt
  rw [address, BitVec.toNat_ofNat]
  omega

inductive Operation where
  | nop
  | hlt
  | unassigned
  | mov (target source : Operand)
  | mvi (target : Operand)
  | lxi (target : WideOperand)
  | stax (pointer : Pointer)
  | ldax (pointer : Pointer)
  | sta
  | lda
  | shld
  | lhld
  | xchg
  | inr (target : Operand)
  | dcr (target : Operand)
  | inx (target : WideOperand)
  | dcx (target : WideOperand)
  | dad (source : WideOperand)
  | arithmetic (kind : Arithmetic) (source : Operand)
  | arithmeticImmediate (kind : Arithmetic)
  | rotate (kind : Rotation)
  | daa
  | cma
  | stc
  | cmc
  | jump
  | jumpIf (condition : Condition)
  | call
  | callIf (condition : Condition)
  | ret
  | retIf (condition : Condition)
  | rst (number : Restart)
  | pchl
  | push (source : StackOperand)
  | pop (target : StackOperand)
  | xthl
  | sphl
  | ei
  | di
  | input
  | output
  deriving DecidableEq

def Pointer.pair : Pointer → Pair
  | .bc => .bc
  | .de => .de

def Condition.holds (flags : Flags) : Condition → Bool
  | .nz => !flags.z
  | .z => flags.z
  | .nc => !flags.cy
  | .c => flags.cy
  | .po => !flags.p
  | .pe => flags.p
  | .p => !flags.s
  | .m => flags.s

/-- How many bytes the instruction takes, its opcode included. -/
def Operation.length : Operation → Nat
  | .lxi _ | .sta | .lda | .shld | .lhld => 3
  | .jump | .jumpIf _ | .call | .callIf _ => 3
  | .mvi _ | .arithmeticImmediate _ | .input | .output => 2
  | _ => 1

end Arcade8080
