import Arcade8080.Alu.Lemmas
import Arcade8080.Cpu.Chain

/-!
Binary numbers of any length are added by ACI and subtracted by SBI, byte by byte from the
least significant one up. The carry flag takes the carry or the borrow from each byte to the
next, so what is in it at the end is that of the whole numbers.
-/

namespace Arcade8080.Cpu

/-- MVI A and ACI for each pair of bytes. -/
def adding (first second : List Byte) : List (List Instruction) :=
  List.zipWith (operating 0xCE) first second

/-- MVI A and SBI for each pair of bytes. -/
def subtracting (first second : List Byte) : List (List Instruction) :=
  List.zipWith (operating 0xDE) first second

/-- The number that bytes stand for, from the least significant one up. -/
def binary (bytes : List Byte) : Nat := numeral 256 BitVec.toNat bytes

/-- What an operation makes of two bytes and the carry, its groups make of two digits. -/
theorem links_operating {opcode : Byte} {kind : Arithmetic} {sign : Int}
    (hdecode : Operation.decode opcode = .arithmeticImmediate kind)
    (hlaw : ∀ (flags : Flags) (a operand : Byte),
      ((Alu.apply kind flags a operand).1.toNat : Int) +
          sign * (256 * (Alu.apply kind flags a operand).2.cy.toNat) =
        a.toNat + sign * (operand.toNat + flags.cy.toNat)) :
    Links (operating opcode) (fun _ => True) BitVec.toNat 256 sign where
  succeeds cpu first second := (afterAll_operating hdecode cpu first second).1
  isDigit _ _ _ _ _ := trivial
  law := by
    intro cpu first second _ _
    rw [(afterAll_operating hdecode cpu first second).2]
    exact hlaw cpu.flags first second

theorem links_adding : Links (operating 0xCE) (fun _ => True) BitVec.toNat 256 1 := by
  have hdecode : Operation.decode 0xCE = .arithmeticImmediate .adc := rfl
  refine links_operating hdecode fun flags augend addend => ?_
  have htotal := (Alu.sums_add flags augend addend flags.cy).total
  rw [Alu.apply]
  omega

theorem links_subtracting : Links (operating 0xDE) (fun _ => True) BitVec.toNat 256 (-1) := by
  have hdecode : Operation.decode 0xDE = .arithmeticImmediate .sbb := rfl
  refine links_operating hdecode fun flags minuend subtrahend => ?_
  have htotal := (Alu.differs_subtract flags minuend subtrahend flags.cy).total
  rw [Alu.apply]
  omega

theorem binary_lt (bytes : List Byte) : binary bytes < 256 ^ bytes.length :=
  numeral_lt (by decide) fun byte _ => byte.isLt

/-- Adding two numbers byte by byte gives their sum with the carry that was there, and leaves a
carry of the weight above them; subtracting gives the difference, and leaves a borrow exactly
where the first number is the smaller one. Every instruction succeeds. -/
theorem chains_add_and_subtract (cpu : Cpu) (first second : List Byte)
    (h : first.length = second.length) :
    (let sum := cpu.collected (adding first second)
      let after := cpu.afterAll (executing (adding first second).flatten)
      cpu.Succeeds (executing (adding first second).flatten) ∧ sum.length = first.length ∧
      binary sum + 256 ^ first.length * after.flags.cy.toNat =
        binary first + binary second + cpu.flags.cy.toNat) ∧
    (let difference := cpu.collected (subtracting first second)
      let after := cpu.afterAll (executing (subtracting first second).flatten)
      cpu.Succeeds (executing (subtracting first second).flatten) ∧
      difference.length = first.length ∧
      (binary difference : Int) =
        binary first - binary second - cpu.flags.cy.toNat +
          256 ^ first.length * after.flags.cy.toNat ∧
      (after.flags.cy = true ↔ binary first < binary second + cpu.flags.cy.toNat)) := by
  constructor
  · intro sum after
    obtain ⟨hlength, _, _⟩ := links_adding.chain cpu h (fun _ _ => trivial) fun _ _ => trivial
    exact ⟨links_adding.succeeds_chain cpu first second, hlength,
      links_adding.sum cpu h (fun _ _ => trivial) fun _ _ => trivial⟩
  · intro difference after
    obtain ⟨hlength, _, hdifference⟩ :=
      links_subtracting.chain cpu h (fun _ _ => trivial) fun _ _ => trivial
    have htotal : (binary difference : Int) +
        (-1) * (256 ^ first.length * after.flags.cy.toNat) =
          binary first + (-1) * (binary second + cpu.flags.cy.toNat) := hdifference
    have hvalue : (binary difference : Int) =
        binary first - binary second - cpu.flags.cy.toNat +
          256 ^ first.length * after.flags.cy.toNat := by
      linear_combination htotal
    refine ⟨links_subtracting.succeeds_chain cpu first second, hlength, hvalue, ?_⟩
    -- What is left is below the weight of the borrow, so the borrow tells which number is smaller.
    have hlt : (binary difference : Int) < 256 ^ first.length := by
      have hbelow := binary_lt difference
      rw [show difference.length = first.length from hlength] at hbelow
      exact_mod_cast hbelow
    cases hcy : after.flags.cy with
    | false =>
      rw [hcy, Bool.toNat_false] at hvalue
      simp only [Bool.false_eq_true, false_iff]
      omega
    | true =>
      rw [hcy, Bool.toNat_true] at hvalue
      simp only [true_iff]
      omega

/-- A processor with a carry left over. -/
def carrying : Cpu where
  flags := { cy := true }

/-- 7FFF and 8000 and the carry come to 10000, which leaves nothing and a carry. Taking 8000 and
the carry from 7FFF falls 2 short of nothing. -/
theorem chains_add_and_subtract_of_carrying :
    (binary (carrying.collected (adding [0xFF, 0x7F] [0x00, 0x80])) = 0 ∧
      (carrying.afterAll (executing (adding [0xFF, 0x7F] [0x00, 0x80]).flatten)).flags.cy =
        true) ∧
    (binary (carrying.collected (subtracting [0xFF, 0x7F] [0x00, 0x80])) = 0xFFFE ∧
      (carrying.afterAll (executing (subtracting [0xFF, 0x7F] [0x00, 0x80]).flatten)).flags.cy =
        true) := by
  obtain ⟨⟨_, hlength, hsum⟩, ⟨_, _, hdifference, hborrow⟩⟩ :=
    chains_add_and_subtract carrying [0xFF, 0x7F] [0x00, 0x80] rfl
  have hfirst : binary [0xFF, 0x7F] = 0x7FFF := rfl
  have hsecond : binary [0x00, 0x80] = 0x8000 := rfl
  have hcarry : carrying.flags.cy.toNat = 1 := rfl
  have hcy := hborrow.mpr (by rw [hfirst, hsecond, hcarry]; decide)
  have hbelow := binary_lt (carrying.collected (adding [0xFF, 0x7F] [0x00, 0x80]))
  have hle := Bool.toNat_le
    (carrying.afterAll (executing (adding [0xFF, 0x7F] [0x00, 0x80]).flatten)).flags.cy
  rw [hlength] at hbelow
  rw [hfirst, hsecond, hcarry] at hsum hdifference
  rw [hcy, Bool.toNat_true] at hdifference
  simp only [List.length_cons, List.length_nil] at hsum hbelow hdifference
  exact ⟨⟨by omega, Bool.toNat_eq_one.mp (by omega)⟩, by omega, hcy⟩

end Arcade8080.Cpu
