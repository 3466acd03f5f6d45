import Arcade8080.Word

/-!
The seven byte registers. A pair is a view of two of them: it is never stored,
so a pair and its halves cannot disagree.
-/

namespace Arcade8080

inductive Register where
  | a | b | c | d | e | h | l
  deriving DecidableEq

/-- A register pair, named by its high half in assembler text. -/
inductive Pair where
  | bc | de | hl
  deriving DecidableEq

structure Registers where
  a : Byte := 0
  b : Byte := 0
  c : Byte := 0
  d : Byte := 0
  e : Byte := 0
  h : Byte := 0
  l : Byte := 0
  deriving DecidableEq

namespace Registers

def get (registers : Registers) : Register → Byte
  | .a => registers.a
  | .b => registers.b
  | .c => registers.c
  | .d => registers.d
  | .e => registers.e
  | .h => registers.h
  | .l => registers.l

def set (registers : Registers) (register : Register) (value : Byte) : Registers :=
  match register with
  | .a => { registers with a := value }
  | .b => { registers with b := value }
  | .c => { registers with c := value }
  | .d => { registers with d := value }
  | .e => { registers with e := value }
  | .h => { registers with h := value }
  | .l => { registers with l := value }

def bc (registers : Registers) : Word := Word.ofBytes registers.b registers.c

def de (registers : Registers) : Word := Word.ofBytes registers.d registers.e

def hl (registers : Registers) : Word := Word.ofBytes registers.h registers.l

def pair (registers : Registers) : Pair → Word
  | .bc => registers.bc
  | .de => registers.de
  | .hl => registers.hl

/-- Both halves at once, high half first. -/
def setHalves (registers : Registers) (pair : Pair) (high low : Byte) : Registers :=
  match pair with
  | .bc => { registers with b := high, c := low }
  | .de => { registers with d := high, e := low }
  | .hl => { registers with h := high, l := low }

def setPair (registers : Registers) (pair : Pair) (value : Word) : Registers :=
  registers.setHalves pair (Word.high value) (Word.low value)

/-- Which field each register is. -/
theorem eq_get (registers : Registers) :
    registers =
      { a := registers.get .a, b := registers.get .b, c := registers.get .c
        d := registers.get .d, e := registers.get .e, h := registers.get .h
        l := registers.get .l } := rfl

/-- To set a register is to assign to its field and to no other. -/
theorem set_eq (registers : Registers) (register : Register) (value : Byte) :
    registers.set register value =
      { a := if register = .a then value else registers.a
        b := if register = .b then value else registers.b
        c := if register = .c then value else registers.c
        d := if register = .d then value else registers.d
        e := if register = .e then value else registers.e
        h := if register = .h then value else registers.h
        l := if register = .l then value else registers.l } := by
  cases register <;> rfl

theorem toNat_bc (registers : Registers) :
    registers.bc.toNat = registers.b.toNat * 256 + registers.c.toNat :=
  Word.toNat_ofBytes registers.b registers.c

theorem toNat_de (registers : Registers) :
    registers.de.toNat = registers.d.toNat * 256 + registers.e.toNat :=
  Word.toNat_ofBytes registers.d registers.e

theorem toNat_hl (registers : Registers) :
    registers.hl.toNat = registers.h.toNat * 256 + registers.l.toNat :=
  Word.toNat_ofBytes registers.h registers.l

theorem get_set (registers : Registers) (register : Register) (value : Byte) (other : Register) :
    (registers.set register value).get other =
      if register = other then value else registers.get other := by
  rw [set_eq]
  cases other <;> rfl

@[simp] theorem get_set_self (registers : Registers) (register : Register) (value : Byte) :
    (registers.set register value).get register = value := by
  rw [get_set, if_pos rfl]

theorem get_set_of_ne (registers : Registers) {register other : Register} (value : Byte)
    (h : other ≠ register) : (registers.set register value).get other = registers.get other := by
  rw [get_set, if_neg h.symm]

/-- There is nothing more to the registers than the byte in each. -/
theorem eq_of_get {first second : Registers}
    (h : ∀ register, second.get register = first.get register) : second = first := by
  rw [eq_get second, eq_get first]
  simp only [h]

@[simp] theorem pair_setPair (registers : Registers) (pair : Pair) (value : Word) :
    (registers.setPair pair value).pair pair = value := by
  cases pair <;> exact Word.ofBytes_high_low value

@[simp] theorem setPair_pair (registers : Registers) (pair : Pair) :
    registers.setPair pair (registers.pair pair) = registers := by
  cases pair <;> simp [setPair, setHalves, Registers.pair, bc, de, hl]

@[simp] theorem setPair_setPair (registers : Registers) (pair : Pair) (first second : Word) :
    (registers.setPair pair first).setPair pair second = registers.setPair pair second := by
  cases pair <;> rfl

end Registers

end Arcade8080
