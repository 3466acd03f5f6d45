import Arcade8080.Board.Lemmas
import Arcade8080.Core.Checked

/-!
Nothing that a program in memory does can bring the machine to a point where it has no next
state. The processor and the board run here on checked programs, which have no value where an
opcode comes to a routine that does not serve it, an index names no register, a sum is too
large or a shift too long. They always have the value of the unchecked ones, so that all that
can go wrong is a fault of memory, which is an answer like others.
-/

namespace Arcade8080

namespace Cpu

variable {α : Type}

/-- Runs a checked program. A fault on the way to a missing value comes first. -/
def transact? (cpu : Cpu) (program : Core → OptionT Bus (α × Core)) : Option (Attempt Cpu α) :=
  match Bus.run (program cpu.toCore).run cpu.memory with
  | ⟨.ok (some (value, after)), memory, records⟩ =>
    some ⟨.ok value, { cpu with toCore := after, memory }, records⟩
  | ⟨.ok none, _, _⟩ => none
  | ⟨.error fault, memory, records⟩ => some ⟨.error fault, { cpu with memory }, records⟩

def step? (cpu : Cpu) : Option (Attempt Cpu StepOutcome) :=
  let request := cpu.pending
  { cpu with pending := none }.transact? (·.step? request)

def execute? (cpu : Cpu) (instruction : Instruction) : Option (Attempt Cpu StepOutcome) :=
  cpu.transact? (·.execute? instruction)

/-- A program that has a value wherever it succeeds has one for the processor. -/
theorem transact?_eq (cpu : Cpu) {checked : Core → OptionT Bus (α × Core)}
    {program : Core → Bus (α × Core)} (h : ∀ core, checked core = liftM (program core)) :
    cpu.transact? checked = some (cpu.transact program) := by
  have hrun : Bus.run (checked cpu.toCore).run cpu.memory =
      ((program cpu.toCore) >>= fun ended => pure (some ended)).run cpu.memory := by
    rw [h]
    rfl
  rw [transact?, hrun, Bus.run_bind_pure, transact_eq]
  rcases (program cpu.toCore).run cpu.memory with ⟨fault | ⟨value, after⟩, memory, records⟩ <;> rfl

theorem execute?_eq (cpu : Cpu) (instruction : Instruction) :
    cpu.execute? instruction = some (cpu.execute instruction) := by
  rw [execute_eq]
  exact transact?_eq cpu fun core => Core.execute?_eq core instruction

theorem step?_eq (cpu : Cpu) : cpu.step? = some cpu.step := by
  rw [step_eq]
  exact transact?_eq _ fun core => Core.step?_eq core cpu.pending

end Cpu

namespace Board

namespace Ports

/-- Eight bits of the shift register, as many below the top as the low bits of an offset say. -/
def shifted? (register : Word) (offset : Byte) : Option Byte := do
  let count ← Checked.sub 8#8 (offset &&& 0x07)
  let moved ← Checked.shiftRight register count.toNat
  return moved.setWidth 8

def read? (ports : Ports) (port : Byte) : Option Byte :=
  match port.toNat with
  | 1 => some ports.in1
  | 2 => some ports.in2
  | 3 => shifted? ports.shiftRegister (BitVec.ofNat 8 ports.shiftOffset.val)
  | _ => some 0

def write? (ports : Ports) (port value : Byte) : Option Ports :=
  match port.toNat with
  | 2 => some { ports with shiftOffset := .ofNat (value &&& 0x07).toNat }
  | 3 => some { ports with out3 := value }
  | 4 => do
    let low ← Checked.shiftRight ports.shiftRegister 8
    let high ← Checked.shiftLeft (value.setWidth 16) 8
    return { ports with shiftRegister := low ||| high }
  | 5 => some { ports with out5 := value }
  | _ => some ports

theorem toNat_and_seven (value : Byte) : (value &&& 0x07).toNat = value.toNat % 8 := by
  rw [BitVec.toNat_and]
  exact Nat.and_two_pow_sub_one_eq_mod value.toNat 3

/-- No offset is too large, also where it has more than three bits. -/
theorem shifted?_eq (register : Word) (offset : Byte) :
    shifted? register offset = some ((register >>> (8 - offset.toNat % 8)).setWidth 8) := by
  have hoffset := toNat_and_seven offset
  have hsub : (offset &&& 0x07).toNat ≤ (8#8).toNat := by
    rw [hoffset, BitVec.toNat_ofNat]
    omega
  have hcount : (8#8 - (offset &&& 0x07)).toNat = 8 - offset.toNat % 8 := by
    rw [BitVec.toNat_sub_of_le hsub, hoffset]
    rfl
  have hshift : (8#8 - (offset &&& 0x07)).toNat < 16 := by omega
  rw [shifted?, Checked.sub_eq_some hsub, Option.bind_eq_bind, Option.bind_some,
    Checked.shiftRight_eq_some hshift, hcount]
  rfl

theorem read?_eq (ports : Ports) (port : Byte) : ports.read? port = some (ports.read port) := by
  have hoffset : (BitVec.ofNat 8 ports.shiftOffset.val).toNat % 8 = ports.shiftOffset.val := by
    rw [BitVec.toNat_ofNat]
    omega
  have hshifted := shifted?_eq ports.shiftRegister (BitVec.ofNat 8 ports.shiftOffset.val)
  rw [hoffset] at hshifted
  rw [read?, read]
  match port.toNat with
  | 0 | 1 | 2 => rfl
  | 3 => exact hshifted
  | _ + 4 => rfl

/-- Moving the register down and putting a byte on top makes a word of the two bytes. -/
theorem shifted_or_eq (register : Word) (value : Byte) :
    register >>> 8 ||| value.setWidth 16 <<< 8 = Word.ofBytes value (Word.high register) := by
  apply BitVec.eq_of_toNat_eq
  have hregister := register.isLt
  have hvalue := value.isLt
  have hhigh : register.toNat >>> 8 < 256 := by
    rw [Nat.shiftRight_eq_div_pow]
    omega
  rw [Word.toNat_ofBytes, Word.toNat_high, BitVec.toNat_or, BitVec.toNat_ushiftRight,
    BitVec.toNat_shiftLeft, BitVec.toNat_setWidth, Nat.or_comm, Nat.mod_eq_of_lt (by omega),
    Nat.mod_eq_of_lt (by omega), ← Nat.shiftLeft_add_eq_or_of_lt hhigh,
    Nat.shiftLeft_eq, Nat.shiftRight_eq_div_pow]

theorem write?_eq (ports : Ports) (port value : Byte) :
    ports.write? port value = some (ports.write port value) := by
  have hoffset : Octal.ofNat (value &&& 0x07).toNat = Octal.ofNat value.toNat := by
    apply Fin.ext
    rw [toNat_and_seven]
    exact Nat.mod_mod value.toNat 8
  rw [write?, write]
  match port.toNat with
  | 0 | 1 | 3 | 5 => rfl
  | 2 => exact congrArg (fun shiftOffset => some { ports with shiftOffset }) hoffset
  | 4 =>
    exact congrArg (fun shiftRegister => some { ports with shiftRegister })
      (shifted_or_eq ports.shiftRegister value)
  | _ + 6 => rfl

end Ports

/-- What the ports do about an outcome, where their answer is defined. -/
def service? (board : Board) : StepOutcome → Option Board
  | .executed _ _ (some (.input port)) => do
    return { board with cpu.registers.a := ← board.ports.read? port }
  | .executed _ _ (some (.output port value)) => do
    return { board with ports := ← board.ports.write? port value }
  | _ => some board

def step? (board : Board) : Option (Attempt Board StepOutcome) := do
  match ← board.cpu.step? with
  | ⟨.ok outcome, cpu, records⟩ =>
    return ⟨.ok outcome, ← service? { board with cpu } outcome, records⟩
  | ⟨.error fault, cpu, records⟩ => return ⟨.error fault, { board with cpu }, records⟩

theorem service?_eq (board : Board) (outcome : StepOutcome) :
    board.service? outcome = some (board.service outcome) := by
  cases outcome with
  | interrupted number => rfl
  | executed opcode length port =>
    rcases port with _ | ⟨port⟩ | ⟨port, value⟩
    · rfl
    · rw [service?, Ports.read?_eq]
      rfl
    · rw [service?, Ports.write?_eq]
      rfl

theorem step?_eq (board : Board) : board.step? = some board.step := by
  obtain ⟨cpu, ports, halfFrame⟩ := board
  simp only [step?, step, Cpu.step?_eq, Option.bind_eq_bind, Option.bind_some]
  rcases cpu.step with ⟨fault | outcome, after, records⟩
  · rfl
  · simp only [service?_eq]
    rfl

/-- The board after a number of checked steps, failed ones included. -/
def afterSteps? (board : Board) : Nat → Option Board
  | 0 => some board
  | count + 1 => do
    let reached ← board.afterSteps? count
    let attempt ← reached.step?
    return attempt.state

theorem afterSteps?_eq (board : Board) (count : Nat) :
    board.afterSteps? count = some (board.afterSteps count) := by
  induction count with
  | zero => rfl
  | succ count ih =>
    rw [afterSteps?, ih, Option.bind_eq_bind, Option.bind_some, step?_eq]
    rfl

end Board

/-- The routine of every opcode serves it, parity and the shift register are defined for all
operands, and on every processor and every board each instruction and each step has a result,
which is that of the unchecked machine, for as long as it goes on. -/
theorem every_step_is_defined :
    (∀ opcode : Byte,
      (Operation.entry opcode).routine.operation? opcode = some (.decode opcode) ∧
      (Operation.entry opcode).length = (Operation.decode opcode).length) ∧
    (∀ value size : BitVec 32, Parity.even? value size = some (Parity.even value size.toNat)) ∧
    (∀ (register : Word) (offset : Byte), Board.Ports.shifted? register offset =
      some ((register >>> (8 - offset.toNat % 8)).setWidth 8)) ∧
    (∀ (ports : Board.Ports) (port value : Byte),
      ports.read? port = some (ports.read port) ∧
      ports.write? port value = some (ports.write port value)) ∧
    (∀ (cpu : Cpu) (instruction : Instruction),
      cpu.execute? instruction = some (cpu.execute instruction)) ∧
    (∀ cpu : Cpu, cpu.step? = some cpu.step) ∧
    (∀ board : Board, board.step? = some board.step ∧
      ∀ count, board.afterSteps? count = some (board.afterSteps count)) :=
  ⟨Operation.entry_spec, Parity.even?_eq, Board.Ports.shifted?_eq,
    fun ports port value => ⟨ports.read?_eq port, ports.write?_eq port value⟩,
    Cpu.execute?_eq, Cpu.step?_eq, fun board => ⟨board.step?_eq, board.afterSteps?_eq⟩⟩

end Arcade8080
