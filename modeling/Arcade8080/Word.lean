/-!
Bytes and words, the two fixed widths of the machine, the octal digits that opcodes
are made of, and the width of the host. A word is a high byte followed by a low byte;
`ofBytes` and the two halves are inverse.
-/

namespace Arcade8080

/-- An 8-bit value: a register, an operand or one cell of memory. -/
abbrev Byte := BitVec 8

/-- A 16-bit value: an address, a register pair or a stack pointer. -/
abbrev Word := BitVec 16

/-- A count of bytes on the host, which has 64 bits. -/
abbrev Size := BitVec 64

/-- Three bits: a field of an opcode, the number of a restart or a bit position. -/
abbrev Octal := Fin 8

/-- The lowest three bits of a number. -/
def Octal.ofNat (value : Nat) : Octal := ⟨value % 8, Nat.mod_lt value (by decide)⟩

namespace Word

def ofBytes (high low : Byte) : Word := high ++ low

def high (word : Word) : Byte := word.extractLsb' 8 8

def low (word : Word) : Byte := word.extractLsb' 0 8

/-- The number a word stands for, from the numbers of its halves. -/
theorem toNat_ofBytes (high low : Byte) :
    (ofBytes high low).toNat = high.toNat * 256 + low.toNat := by
  rw [ofBytes, BitVec.toNat_append, ← Nat.shiftLeft_add_eq_or_of_lt low.isLt,
    Nat.shiftLeft_eq]

theorem toNat_high (word : Word) : (high word).toNat = word.toNat / 256 := by
  have := word.isLt
  simp only [high, BitVec.extractLsb'_toNat, Nat.shiftRight_eq_div_pow]
  omega

theorem toNat_low (word : Word) : (low word).toNat = word.toNat % 256 := by
  simp [low, BitVec.extractLsb'_toNat]

@[simp] theorem high_ofBytes (h l : Byte) : high (ofBytes h l) = h := by
  apply BitVec.eq_of_toNat_eq
  have := l.isLt
  rw [toNat_high, toNat_ofBytes]
  omega

@[simp] theorem low_ofBytes (h l : Byte) : low (ofBytes h l) = l := by
  apply BitVec.eq_of_toNat_eq
  have := l.isLt
  rw [toNat_low, toNat_ofBytes]
  omega

@[simp] theorem ofBytes_high_low (word : Word) : ofBytes (high word) (low word) = word := by
  apply BitVec.eq_of_toNat_eq
  rw [toNat_ofBytes, toNat_high, toNat_low]
  omega

theorem toNat_add_one (word : Word) : (word + 1).toNat = (word.toNat + 1) % 0x10000 :=
  BitVec.toNat_add word 1

theorem toNat_add_two (word : Word) : (word + 2).toNat = (word.toNat + 2) % 0x10000 :=
  BitVec.toNat_add word 2

theorem toNat_sub_one (word : Word) :
    (word - 1).toNat = (word.toNat + 0x10000 - 1) % 0x10000 := by
  rw [BitVec.toNat_sub, Nat.add_comm, Nat.add_sub_assoc (by decide)]
  rfl

theorem toNat_sub_two (word : Word) :
    (word - 2).toNat = (word.toNat + 0x10000 - 2) % 0x10000 := by
  rw [BitVec.toNat_sub, Nat.add_comm, Nat.add_sub_assoc (by decide)]
  rfl

/-- The address after the last one is address 0. -/
theorem toNat_succ (word : Word) :
    (word + 1).toNat = if word.toNat = 0xFFFF then 0 else word.toNat + 1 := by
  have hword := word.isLt
  rw [toNat_add_one]
  split <;> omega

end Word

end Arcade8080
