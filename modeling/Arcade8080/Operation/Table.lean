import Arcade8080.Operation.Decode

/-!
The instruction set as a table that is filled row by row. A routine is found by opcode and
then reads the fields of the opcode for itself: it serves some opcodes only, and has no
operation for the others. Every opcode finds a routine that serves it, and what the routine
reads is what the opcode decodes to.
-/

namespace Arcade8080

/-- The register of an index. There is none for 6, which stands for memory, nor past 7. -/
def Register.ofIndex? (index : Byte) : Option Register :=
  match index.toNat with
  | 0 => some .b
  | 1 => some .c
  | 2 => some .d
  | 3 => some .e
  | 4 => some .h
  | 5 => some .l
  | 7 => some .a
  | _ => none

def Operand.ofIndex? (index : Byte) : Option Operand :=
  if index = 6 then some .memory else (Register.ofIndex? index).map .register

/-- Only the first two pairs address memory. -/
def Pointer.ofPair? : WideOperand → Option Pointer
  | .pair .bc => some .bc
  | .pair .de => some .de
  | _ => none

namespace Operation

/-- The lowest two bits of a byte. -/
def pairBits (value : Byte) : Fin 4 := ⟨value.toNat % 4, Nat.mod_lt _ (by decide)⟩

/-- The lowest three bits of a byte. -/
def fieldBits (value : Byte) : Octal := .ofNat value.toNat

/-- What the rows of the table lead to. A fixed routine takes nothing from the opcode. -/
inductive Routine where
  | fixed (operation : Operation)
  | mov
  | mvi
  | lxi
  | stax
  | ldax
  | inr
  | dcr
  | inx
  | dcx
  | dad
  | arithmetic
  | arithmeticImmediate
  | rotate
  | jumpIf
  | callIf
  | retIf
  | rst
  | push
  | pop
  deriving DecidableEq

/-- What a routine makes of an opcode, if the opcode is one that it serves. -/
def Routine.operation? (routine : Routine) (opcode : Byte) : Option Operation :=
  let low := opcode &&& 0x07
  let middle := (opcode >>> 3) &&& 0x07
  let pair := pairBits (opcode >>> 4)
  match routine with
  | .fixed operation => some operation
  | .mov => do
    let source ← Operand.ofIndex? low
    let target ← Operand.ofIndex? middle
    return .mov target source
  | .mvi => return .mvi (← Operand.ofIndex? middle)
  | .lxi => return .lxi (.ofField pair)
  | .stax => do
    guard (opcode = 0x02 ∨ opcode = 0x12)
    return .stax (← Pointer.ofPair? (.ofField pair))
  | .ldax => do
    guard (opcode = 0x0A ∨ opcode = 0x1A)
    return .ldax (← Pointer.ofPair? (.ofField pair))
  | .inr => return .inr (← Operand.ofIndex? middle)
  | .dcr => return .dcr (← Operand.ofIndex? middle)
  | .inx => return .inx (.ofField pair)
  | .dcx => return .dcx (.ofField pair)
  | .dad => return .dad (.ofField pair)
  | .arithmetic => return .arithmetic (.ofField (fieldBits middle)) (← Operand.ofIndex? low)
  | .arithmeticImmediate => do
    guard (opcode &&& 0xC7 = 0xC6)
    return .arithmeticImmediate (.ofField (fieldBits middle))
  | .rotate =>
    match opcode.toNat with
    | 0x07 => some (.rotate .rlc)
    | 0x0F => some (.rotate .rrc)
    | 0x17 => some (.rotate .ral)
    | 0x1F => some (.rotate .rar)
    | _ => none
  | .jumpIf => do
    guard (opcode &&& 0xC7 = 0xC2)
    return .jumpIf (.ofField (fieldBits middle))
  | .callIf => do
    guard (opcode &&& 0xC7 = 0xC4)
    return .callIf (.ofField (fieldBits middle))
  | .retIf => do
    guard (opcode &&& 0xC7 = 0xC0)
    return .retIf (.ofField (fieldBits middle))
  | .rst => do
    guard (opcode &&& 0xC7 = 0xC7)
    return .rst (fieldBits ((opcode &&& 0x38) >>> 3))
  | .push => do
    guard (opcode = 0xC5 ∨ opcode = 0xD5 ∨ opcode = 0xE5 ∨ opcode = 0xF5)
    return .push (.ofField pair)
  | .pop => do
    guard (opcode = 0xC1 ∨ opcode = 0xD1 ∨ opcode = 0xE1 ∨ opcode = 0xF1)
    return .pop (.ofField pair)

structure Entry where
  length : Nat
  routine : Routine
  deriving DecidableEq

structure Row where
  opcode : Byte
  entry : Entry

def row (opcode : Byte) (length : Nat) (routine : Routine) : Row := ⟨opcode, length, routine⟩

/-- The rows for the pair that a number below 4 selects. -/
def pairRows (number : Nat) : List Row :=
  let base : Byte := BitVec.ofNat 8 number <<< 4
  [row (base ||| 0x01) 3 .lxi, row (base ||| 0x03) 1 .inx, row (base ||| 0x09) 1 .dad,
    row (base ||| 0x0B) 1 .dcx, row (0xC1 ||| base) 1 .pop, row (0xC5 ||| base) 1 .push]

/-- The rows for the register, the kind of arithmetic or the condition that a number below 8
selects. -/
def fieldRows (number : Nat) : List Row :=
  let field : Byte := BitVec.ofNat 8 number <<< 3
  [row (0x04 ||| field) 1 .inr, row (0x05 ||| field) 1 .dcr, row (0x06 ||| field) 2 .mvi,
    row (0xC6 ||| field) 2 .arithmeticImmediate, row (0xC0 ||| field) 1 .retIf,
    row (0xC2 ||| field) 3 .jumpIf, row (0xC4 ||| field) 3 .callIf, row (0xC7 ||| field) 1 .rst]

/-- The opcodes from `first` on. -/
def opcodesFrom (first count : Nat) : List Byte :=
  (List.range' first count).map (BitVec.ofNat 8)

/-- The rows in the order in which they go into the table. -/
def rows : List Row :=
  [row 0x00 1 (.fixed .nop), row 0x76 1 (.fixed .hlt)] ++
  (List.range 4).flatMap pairRows ++
  [row 0x02 1 .stax, row 0x12 1 .stax, row 0x0A 1 .ldax, row 0x1A 1 .ldax,
    row 0x22 3 (.fixed .shld), row 0x2A 3 (.fixed .lhld), row 0x32 3 (.fixed .sta),
    row 0x3A 3 (.fixed .lda)] ++
  (List.range 8).flatMap fieldRows ++
  [row 0x07 1 .rotate, row 0x0F 1 .rotate, row 0x17 1 .rotate, row 0x1F 1 .rotate,
    row 0x27 1 (.fixed .daa), row 0x2F 1 (.fixed .cma), row 0x37 1 (.fixed .stc),
    row 0x3F 1 (.fixed .cmc)] ++
  ((opcodesFrom 0x40 0x40).filter (· ≠ 0x76)).map (row · 1 .mov) ++
  (opcodesFrom 0x80 0x40).map (row · 1 .arithmetic) ++
  [row 0xC3 3 (.fixed .jump), row 0xC9 1 (.fixed .ret), row 0xCD 3 (.fixed .call),
    row 0xD3 2 (.fixed .output), row 0xDB 2 (.fixed .input), row 0xE3 1 (.fixed .xthl),
    row 0xE9 1 (.fixed .pchl), row 0xEB 1 (.fixed .xchg), row 0xF3 1 (.fixed .di),
    row 0xF9 1 (.fixed .sphl), row 0xFB 1 (.fixed .ei)]

/-- What the table holds for an opcode once some rows have gone into it, where a later row
takes the place of an earlier one. -/
def enter (opcode : Byte) (rows : List Row) (former : Entry) : Entry :=
  rows.foldl (fun found row => if row.opcode = opcode then row.entry else found) former

/-- An opcode that no row is for has no instruction. -/
def entry (opcode : Byte) : Entry := enter opcode rows ⟨1, .fixed .unassigned⟩

theorem enter_cases (opcode : Byte) (rows : List Row) (former : Entry) :
    (∃ row ∈ rows, row.opcode = opcode ∧ enter opcode rows former = row.entry) ∨
      (∀ row ∈ rows, row.opcode ≠ opcode) ∧ enter opcode rows former = former := by
  induction rows generalizing former with
  | nil => exact .inr ⟨by simp, rfl⟩
  | cons first rest ih =>
    rw [enter, List.foldl_cons]
    rcases ih (if first.opcode = opcode then first.entry else former) with
      ⟨row, hmem, hrow, hentered⟩ | ⟨hrest, hentered⟩
    · exact .inl ⟨row, List.mem_cons_of_mem first hmem, hrow, hentered⟩
    · by_cases hfirst : first.opcode = opcode
      · rw [if_pos hfirst] at hentered ⊢
        exact .inl ⟨first, List.mem_cons_self, hfirst, hentered⟩
      · rw [if_neg hfirst] at hentered ⊢
        exact .inr ⟨List.forall_mem_cons.mpr ⟨hfirst, hrest⟩, hentered⟩

/-- The opcodes of some rows as the bits of one number, which is quicker to search. -/
def opcodeBits (rows : List Row) : Nat :=
  rows.foldr (fun row bits => bits ||| 1 <<< row.opcode.toNat) 0

theorem exists_row_of_testBit {rows : List Row} {opcode : Byte}
    (h : (opcodeBits rows).testBit opcode.toNat = true) : ∃ row ∈ rows, row.opcode = opcode := by
  induction rows with
  | nil => simp [opcodeBits] at h
  | cons first rest ih =>
    rw [opcodeBits, List.foldr_cons, Nat.testBit_or, Bool.or_eq_true] at h
    rcases h with hrest | hfirst
    · obtain ⟨row, hmem, hrow⟩ := ih hrest
      exact ⟨row, List.mem_cons_of_mem first hmem, hrow⟩
    · refine ⟨first, List.mem_cons_self, ?_⟩
      rw [Nat.one_shiftLeft, Nat.testBit_two_pow] at hfirst
      exact BitVec.eq_of_toNat_eq (of_decide_eq_true hfirst)

/-- A routine serves the opcodes that its rows are for. -/
theorem row_spec : ∀ row ∈ rows,
    row.entry.routine.operation? row.opcode = some (decode row.opcode) ∧
      row.entry.length = (decode row.opcode).length := by
  decide +kernel

theorem unassigned_or_testBit (opcode : Byte) :
    decode opcode = .unassigned ∨ (opcodeBits rows).testBit opcode.toNat = true := by
  revert opcode
  decide +kernel

/-- The routine that the table has for an opcode serves it, with the operation and the length
that decoding gives. -/
theorem entry_spec (opcode : Byte) :
    (entry opcode).routine.operation? opcode = some (decode opcode) ∧
      (entry opcode).length = (decode opcode).length := by
  rcases enter_cases opcode rows ⟨1, .fixed .unassigned⟩ with
    ⟨row, hmem, rfl, hentry⟩ | ⟨hnone, hentry⟩
  · rw [entry, hentry]
    exact row_spec row hmem
  · have hdecode : decode opcode = .unassigned := by
      rcases unassigned_or_testBit opcode with hunassigned | hbit
      · exact hunassigned
      · obtain ⟨row, hmem, hrow⟩ := exists_row_of_testBit hbit
        exact absurd hrow (hnone row hmem)
    rw [entry, hentry, hdecode]
    exact ⟨rfl, rfl⟩

/-- SHLD fits the fields that STAX reads, and JMP those of the conditional jumps, but neither
is served by that routine. -/
example : Routine.stax.operation? 0x22 = none ∧ Routine.jumpIf.operation? 0xC3 = none := by
  decide

end Operation

end Arcade8080
