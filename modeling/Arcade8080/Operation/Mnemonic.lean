import Arcade8080.Operation

/-!
Assembler text of an operation. Bytes that follow the opcode appear as the
placeholders `d8`, `d16` and `a16`; an unassigned opcode is a dash.
-/

namespace Arcade8080

def Register.mnemonic : Register → String
  | .a => "A"
  | .b => "B"
  | .c => "C"
  | .d => "D"
  | .e => "E"
  | .h => "H"
  | .l => "L"

/-- A pair goes by its high half. -/
def Pair.mnemonic : Pair → String
  | .bc => "B"
  | .de => "D"
  | .hl => "H"

def Operand.mnemonic : Operand → String
  | .register name => name.mnemonic
  | .memory => "M"

def WideOperand.mnemonic : WideOperand → String
  | .pair name => name.mnemonic
  | .sp => "SP"

def StackOperand.mnemonic : StackOperand → String
  | .pair name => name.mnemonic
  | .psw => "PSW"

def Condition.mnemonic : Condition → String
  | .nz => "NZ"
  | .z => "Z"
  | .nc => "NC"
  | .c => "C"
  | .po => "PO"
  | .pe => "PE"
  | .p => "P"
  | .m => "M"

def Arithmetic.mnemonic : Arithmetic → String
  | .add => "ADD"
  | .adc => "ADC"
  | .sub => "SUB"
  | .sbb => "SBB"
  | .ana => "ANA"
  | .xra => "XRA"
  | .ora => "ORA"
  | .cmp => "CMP"

/-- The name of the same operation on an immediate byte. -/
def Arithmetic.immediateMnemonic : Arithmetic → String
  | .add => "ADI"
  | .adc => "ACI"
  | .sub => "SUI"
  | .sbb => "SBI"
  | .ana => "ANI"
  | .xra => "XRI"
  | .ora => "ORI"
  | .cmp => "CPI"

def Rotation.mnemonic : Rotation → String
  | .rlc => "RLC"
  | .rrc => "RRC"
  | .ral => "RAL"
  | .rar => "RAR"

def Operation.mnemonic : Operation → String
  | .nop => "NOP"
  | .hlt => "HLT"
  | .unassigned => "-"
  | .mov target source => "MOV " ++ target.mnemonic ++ "," ++ source.mnemonic
  | .mvi target => "MVI " ++ target.mnemonic ++ ",d8"
  | .lxi target => "LXI " ++ target.mnemonic ++ ",d16"
  | .stax pointer => "STAX " ++ pointer.pair.mnemonic
  | .ldax pointer => "LDAX " ++ pointer.pair.mnemonic
  | .sta => "STA a16"
  | .lda => "LDA a16"
  | .shld => "SHLD a16"
  | .lhld => "LHLD a16"
  | .xchg => "XCHG"
  | .inr target => "INR " ++ target.mnemonic
  | .dcr target => "DCR " ++ target.mnemonic
  | .inx target => "INX " ++ target.mnemonic
  | .dcx target => "DCX " ++ target.mnemonic
  | .dad source => "DAD " ++ source.mnemonic
  | .arithmetic kind source => kind.mnemonic ++ " " ++ source.mnemonic
  | .arithmeticImmediate kind => kind.immediateMnemonic ++ " d8"
  | .rotate kind => kind.mnemonic
  | .daa => "DAA"
  | .cma => "CMA"
  | .stc => "STC"
  | .cmc => "CMC"
  | .jump => "JMP a16"
  | .jumpIf condition => "J" ++ condition.mnemonic ++ " a16"
  | .call => "CALL a16"
  | .callIf condition => "C" ++ condition.mnemonic ++ " a16"
  | .ret => "RET"
  | .retIf condition => "R" ++ condition.mnemonic
  | .rst number => "RST " ++ toString number.val
  | .pchl => "PCHL"
  | .push source => "PUSH " ++ source.mnemonic
  | .pop target => "POP " ++ target.mnemonic
  | .xthl => "XTHL"
  | .sphl => "SPHL"
  | .ei => "EI"
  | .di => "DI"
  | .input => "IN d8"
  | .output => "OUT d8"

end Arcade8080
