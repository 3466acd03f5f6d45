import Arcade8080.Operation

/-!
From opcodes to operations. The top two bits of an opcode choose a quarter of
the table, and two fields of three bits choose within it. Every opcode decodes;
twelve of the 256 are unassigned.
-/

namespace Arcade8080

/-- The operand that a field of an opcode names. -/
def Operand.ofField : Octal → Operand
  | 0 => .register .b
  | 1 => .register .c
  | 2 => .register .d
  | 3 => .register .e
  | 4 => .register .h
  | 5 => .register .l
  | 6 => .memory
  | 7 => .register .a

def WideOperand.ofField : Fin 4 → WideOperand
  | 0 => .pair .bc
  | 1 => .pair .de
  | 2 => .pair .hl
  | 3 => .sp

def StackOperand.ofField : Fin 4 → StackOperand
  | 0 => .pair .bc
  | 1 => .pair .de
  | 2 => .pair .hl
  | 3 => .psw

def Condition.ofField : Octal → Condition
  | 0 => .nz
  | 1 => .z
  | 2 => .nc
  | 3 => .c
  | 4 => .po
  | 5 => .pe
  | 6 => .p
  | 7 => .m

def Arithmetic.ofField : Octal → Arithmetic
  | 0 => .add
  | 1 => .adc
  | 2 => .sub
  | 3 => .sbb
  | 4 => .ana
  | 5 => .xra
  | 6 => .ora
  | 7 => .cmp

namespace Operation

/-- The upper two bits of the middle field, which name a pair. -/
def pairField (middle : Octal) : Fin 4 := ⟨middle.val / 2, Nat.div_lt_of_lt_mul middle.isLt⟩

/-- Opcodes 00 to 3F: single registers and pairs, and A with memory. -/
def ofLowQuarter (middle low : Octal) : Operation :=
  match low with
  | 0 => if middle.val = 0 then .nop else .unassigned
  | 1 =>
    let operand := WideOperand.ofField (pairField middle)
    if middle.val % 2 = 0 then .lxi operand else .dad operand
  | 2 =>
    match middle with
    | 0 => .stax .bc
    | 1 => .ldax .bc
    | 2 => .stax .de
    | 3 => .ldax .de
    | 4 => .shld
    | 5 => .lhld
    | 6 => .sta
    | 7 => .lda
  | 3 =>
    let operand := WideOperand.ofField (pairField middle)
    if middle.val % 2 = 0 then .inx operand else .dcx operand
  | 4 => .inr (.ofField middle)
  | 5 => .dcr (.ofField middle)
  | 6 => .mvi (.ofField middle)
  | 7 =>
    match middle with
    | 0 => .rotate .rlc
    | 1 => .rotate .rrc
    | 2 => .rotate .ral
    | 3 => .rotate .rar
    | 4 => .daa
    | 5 => .cma
    | 6 => .stc
    | 7 => .cmc

/-- Opcodes C0 to FF: transfers of control, the stack, immediates and ports. -/
def ofHighQuarter (middle low : Octal) : Operation :=
  match low with
  | 0 => .retIf (.ofField middle)
  | 1 =>
    match middle with
    | 1 => .ret
    | 3 => .unassigned
    | 5 => .pchl
    | 7 => .sphl
    | _ => .pop (.ofField (pairField middle))
  | 2 => .jumpIf (.ofField middle)
  | 3 =>
    match middle with
    | 0 => .jump
    | 1 => .unassigned
    | 2 => .output
    | 3 => .input
    | 4 => .xthl
    | 5 => .xchg
    | 6 => .di
    | 7 => .ei
  | 4 => .callIf (.ofField middle)
  | 5 =>
    match middle with
    | 1 => .call
    | 3 | 5 | 7 => .unassigned
    | _ => .push (.ofField (pairField middle))
  | 6 => .arithmeticImmediate (.ofField middle)
  | 7 => .rst middle

def decode (opcode : Byte) : Operation :=
  let middle := Octal.ofNat (opcode.toNat / 8)
  let low := Octal.ofNat opcode.toNat
  match opcode.toNat / 64 with
  | 0 => ofLowQuarter middle low
  | 1 =>
    if middle.val = 6 ∧ low.val = 6 then .hlt
    else .mov (.ofField middle) (.ofField low)
  | 2 => .arithmetic (.ofField middle) (.ofField low)
  | _ => ofHighQuarter middle low

/-- The opcodes without an instruction, ascending. -/
def unassignedOpcodes : List Byte :=
  ((List.range 256).map (BitVec.ofNat 8)).filter fun opcode => decode opcode = .unassigned

end Operation

end Arcade8080
