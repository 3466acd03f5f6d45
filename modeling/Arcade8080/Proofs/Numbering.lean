import Arcade8080.Proofs.IntegerArithmetic

/-!
The numbers of the instruction set. An operation has the opcode that is put together from the
numbers of its operands, and decoding finds the operation that an opcode is the number of.
-/

namespace Arcade8080

/-- The number of a pair in an opcode. -/
def Pair.field : Pair → Nat
  | .bc => 0
  | .de => 1
  | .hl => 2

/-- The stack pointer comes after the pairs. -/
def WideOperand.field : WideOperand → Nat
  | .pair name => name.field
  | .sp => 3

/-- A and the flags take the place that the stack pointer has elsewhere. -/
def StackOperand.field : StackOperand → Nat
  | .pair name => name.field
  | .psw => 3

def Condition.field : Condition → Nat
  | .nz => 0
  | .z => 1
  | .nc => 2
  | .c => 3
  | .po => 4
  | .pe => 5
  | .p => 6
  | .m => 7

def Rotation.field : Rotation → Nat
  | .rlc => 0
  | .rrc => 1
  | .ral => 2
  | .rar => 3

namespace Operation

/-- The opcodes that stand for an operation. What has no instruction has twelve, a move from
memory to memory has none, and everything else has one. -/
def opcodes : Operation → List Nat
  | .nop => [0x00]
  | .hlt => [0x76]
  | .unassigned => [0x08, 0x10, 0x18, 0x20, 0x28, 0x30, 0x38, 0xCB, 0xD9, 0xDD, 0xED, 0xFD]
  | .mov .memory .memory => []
  | .mov target source => [0x40 + 8 * target.field + source.field]
  | .mvi target => [0x06 + 8 * target.field]
  | .lxi target => [0x01 + 16 * target.field]
  | .stax pointer => [0x02 + 16 * pointer.pair.field]
  | .ldax pointer => [0x0A + 16 * pointer.pair.field]
  | .sta => [0x32]
  | .lda => [0x3A]
  | .shld => [0x22]
  | .lhld => [0x2A]
  | .xchg => [0xEB]
  | .inr target => [0x04 + 8 * target.field]
  | .dcr target => [0x05 + 8 * target.field]
  | .inx target => [0x03 + 16 * target.field]
  | .dcx target => [0x0B + 16 * target.field]
  | .dad source => [0x09 + 16 * source.field]
  | .arithmetic kind source => [Route.opcode kind (.operand source)]
  | .arithmeticImmediate kind => [Route.opcode kind .immediate]
  | .rotate kind => [0x07 + 8 * kind.field]
  | .daa => [0x27]
  | .cma => [0x2F]
  | .stc => [0x37]
  | .cmc => [0x3F]
  | .jump => [0xC3]
  | .jumpIf condition => [0xC2 + 8 * condition.field]
  | .call => [0xCD]
  | .callIf condition => [0xC4 + 8 * condition.field]
  | .ret => [0xC9]
  | .retIf condition => [0xC0 + 8 * condition.field]
  | .rst number => [0xC7 + 8 * number.val]
  | .pchl => [0xE9]
  | .push source => [0xC5 + 16 * source.field]
  | .pop target => [0xC1 + 16 * target.field]
  | .xthl => [0xE3]
  | .sphl => [0xF9]
  | .ei => [0xFB]
  | .di => [0xF3]
  | .input => [0xDB]
  | .output => [0xD3]

theorem mem_opcodes_decode (opcode : Byte) : opcode.toNat ∈ (decode opcode).opcodes := by
  revert opcode
  decide +kernel

theorem decode_of_mem_opcodes {operation : Operation} :
    ∀ code ∈ operation.opcodes, decode (BitVec.ofNat 8 code) = operation := by
  cases operation with
  | unassigned => decide
  | mov target source =>
    rcases target with target | _
    · rcases source with source | _
      · cases target <;> cases source <;> exact List.forall_mem_singleton.mpr rfl
      · cases target <;> exact List.forall_mem_singleton.mpr rfl
    · rcases source with source | _
      · cases source <;> exact List.forall_mem_singleton.mpr rfl
      · exact fun code hmem => absurd hmem List.not_mem_nil
  | mvi target | inr target | dcr target | lxi target | inx target | dcx target | dad target
  | push target | pop target =>
    rcases target with name | _
    · cases name <;> exact List.forall_mem_singleton.mpr rfl
    · exact List.forall_mem_singleton.mpr rfl
  | stax pointer | ldax pointer => cases pointer <;> exact List.forall_mem_singleton.mpr rfl
  | arithmetic kind source =>
    exact List.forall_mem_singleton.mpr (decode_opcode kind (.operand source))
  | arithmeticImmediate kind => exact List.forall_mem_singleton.mpr (decode_opcode kind .immediate)
  | rotate kind => cases kind <;> exact List.forall_mem_singleton.mpr rfl
  | jumpIf condition | callIf condition | retIf condition =>
    cases condition <;> exact List.forall_mem_singleton.mpr rfl
  | rst number =>
    revert number
    decide
  | _ => exact List.forall_mem_singleton.mpr rfl

/-- An opcode stands for one operation, and for no other. -/
theorem decode_eq_iff (opcode : Byte) (operation : Operation) :
    decode opcode = operation ↔ opcode.toNat ∈ operation.opcodes := by
  constructor
  · rintro rfl
    exact mem_opcodes_decode opcode
  · intro hmem
    have hdecode := decode_of_mem_opcodes opcode.toNat hmem
    rwa [BitVec.ofNat_toNat, BitVec.setWidth_eq] at hdecode

end Operation

end Arcade8080
