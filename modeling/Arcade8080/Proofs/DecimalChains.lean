import Arcade8080.Alu.Lemmas
import Arcade8080.Cpu.Chain

/-!
Packed decimal numbers of any length are added by ACI and DAA, two digits at a time from the
least significant ones up. ACI leaves a binary sum of bytes that are no more than 99 in decimal;
with the two carries that it leaves, DAA tells which of the digits went past 9.
-/

namespace Arcade8080

/-- A byte that holds two decimal digits. -/
def IsDecimal (value : Byte) : Prop := value.toNat / 16 ≤ 9 ∧ value.toNat % 16 ≤ 9

instance (value : Byte) : Decidable (IsDecimal value) := inferInstanceAs (Decidable (_ ∧ _))

/-- The number that the two digits write. -/
def decimal (value : Byte) : Nat := 10 * (value.toNat / 16) + value.toNat % 16

theorem IsDecimal.lt {value : Byte} (h : IsDecimal value) : decimal value < 100 := by
  obtain ⟨hhigh, hlow⟩ := h
  rw [decimal]
  omega

namespace Alu

/-- The low digit of a sum went past 9: either it still shows, or it left a carry. -/
def lowPast (flags : Flags) (value : Byte) : Bool := decide (9 < value.toNat % 16) || flags.ac

/-- The high digit went past 9, or is about to once the low digit carries into it. -/
def highPast (flags : Flags) (value : Byte) : Bool :=
  decide (9 < value.toNat / 16) || flags.cy ||
    (decide (9 ≤ value.toNat / 16) && decide (9 < value.toNat % 16))

/-- Each digit that went past 9 gets 6 more, and the carry is that of the high one. -/
theorem decimalAdjust_eq (flags : Flags) (value : Byte) :
    (decimalAdjust flags value).1.toNat =
        (value.toNat + (6 * (lowPast flags value).toNat + 96 * (highPast flags value).toNat)) %
          256 ∧
      (decimalAdjust flags value).2.cy = highPast flags value := by
  have hhigh : (value >>> 4).toNat = value.toNat / 16 := by
    rw [BitVec.toNat_ushiftRight, Nat.shiftRight_eq_div_pow]
  have hlowPast : (decide (value &&& 0x0F > 9) || flags.ac) = lowPast flags value := by
    rw [lowPast, ← toNat_and_fifteen]
    rfl
  have hhighPast : (decide (value >>> 4 > 9) || flags.cy ||
      (decide (value >>> 4 ≥ 9) && decide (value &&& 0x0F > 9))) = highPast flags value := by
    rw [highPast, ← toNat_and_fifteen, ← hhigh]
    rfl
  have hcorrection : ∀ low high : Bool,
      ((if low = true then 0x06 else 0) ||| (if high = true then 0x60 else 0) : Byte).toNat =
        6 * low.toNat + 96 * high.toNat := by decide
  simp only [decimalAdjust, hlowPast, hhighPast]
  refine ⟨?_, trivial⟩
  rw [(sums_add flags value _ false).value, hcorrection]
  rfl

/-- Of a sum of two decimal digits and a carry, what goes to the next digit is one or nothing. -/
theorem toNat_eq_div_ten {past : Bool} {sum : Nat} (h : past = true ↔ 10 ≤ sum)
    (hle : sum ≤ 19) : past.toNat = sum / 10 := by
  cases past with
  | false =>
    have hlt : ¬ 10 ≤ sum := mt h.mpr Bool.false_ne_true
    rw [Bool.toNat_false]
    omega
  | true =>
    have hten : 10 ≤ sum := h.mp rfl
    rw [Bool.toNat_true]
    omega

section

variable {augend addend sum : Byte} {carry : Bool} {flags : Flags}

/-- What the adjustment of a sum makes of its low digit is the carry in decimal. -/
theorem Sums.toNat_lowPast (h : Sums augend.toNat addend.toNat carry.toNat sum flags)
    (haugend : IsDecimal augend) (haddend : IsDecimal addend) :
    (lowPast flags sum).toNat =
      (augend.toNat % 16 + addend.toNat % 16 + carry.toNat) / 10 := by
  obtain ⟨_, haugend⟩ := haugend
  obtain ⟨_, haddend⟩ := haddend
  have hcarry := carry.toNat_le
  have hlow : sum.toNat % 16 = (augend.toNat % 16 + addend.toNat % 16 + carry.toNat) % 16 := by
    rw [h.value]
    omega
  apply toNat_eq_div_ten
  · rw [lowPast, Bool.or_eq_true, decide_eq_true_iff, h.ac, hlow]
    omega
  · omega

/-- What it makes of the high digit is the carry of that, with the carry from the low one. -/
theorem Sums.toNat_highPast (h : Sums augend.toNat addend.toNat carry.toNat sum flags)
    (haugend : IsDecimal augend) (haddend : IsDecimal addend) :
    (highPast flags sum).toNat = (augend.toNat / 16 + addend.toNat / 16 +
      (augend.toNat % 16 + addend.toNat % 16 + carry.toNat) / 10) / 10 := by
  obtain ⟨haugend, haugend'⟩ := haugend
  obtain ⟨haddend, haddend'⟩ := haddend
  have hcarry := carry.toNat_le
  apply toNat_eq_div_ten
  · rw [highPast, Bool.or_eq_true, Bool.or_eq_true, Bool.and_eq_true, decide_eq_true_iff,
      decide_eq_true_iff, decide_eq_true_iff, h.cy, h.value]
    omega
  · omega

/-- A sum of two decimal bytes and a carry, once adjusted, is decimal again. -/
theorem Sums.adjusted (h : Sums augend.toNat addend.toNat carry.toNat sum flags)
    (haugend : IsDecimal augend) (haddend : IsDecimal addend) :
    IsDecimal (decimalAdjust flags sum).1 ∧
      decimal (decimalAdjust flags sum).1 + 100 * (decimalAdjust flags sum).2.cy.toNat =
        decimal augend + decimal addend + carry.toNat := by
  obtain ⟨hresult, hcy⟩ := decimalAdjust_eq flags sum
  have hlowPast := h.toNat_lowPast haugend haddend
  have hhighPast := h.toNat_highPast haugend haddend
  generalize hlow : augend.toNat % 16 + addend.toNat % 16 + carry.toNat = low at *
  generalize hhigh : augend.toNat / 16 + addend.toNat / 16 + low / 10 = high at *
  -- The 6 that a digit gets makes up for carrying at 16 where decimal carries at 10.
  have hdigits : augend.toNat + addend.toNat + carry.toNat + (6 * (low / 10) + 96 * (high / 10)) =
      16 * (high % 10) + low % 10 + 256 * (high / 10) := by omega
  have hadjusted : (decimalAdjust flags sum).1.toNat = 16 * (high % 10) + low % 10 := by
    rw [hresult, hlowPast, hhighPast, h.value, Nat.mod_add_mod, hdigits,
      Nat.add_mul_mod_self_left]
    omega
  rw [IsDecimal, decimal, decimal, decimal, hadjusted, hcy, hhighPast]
  omega

end

end Alu

namespace Cpu

/-- MVI A, ACI and DAA, for two bytes. -/
def addingDigits (first second : Byte) : List Instruction :=
  operating 0xCE first second ++ [⟨0x27, 0, 0⟩]

/-- MVI A, ACI and DAA for each pair of bytes. -/
def addingDecimal (first second : List Byte) : List (List Instruction) :=
  List.zipWith addingDigits first second

theorem execute_daa (cpu : Cpu) :
    (cpu.execute ⟨0x27, 0, 0⟩).result = .ok (cpu.report ⟨0x27, 0, 0⟩) ∧
      (cpu.execute ⟨0x27, 0, 0⟩).state =
        { cpu with
          registers := { cpu.registers with
            a := (Alu.decimalAdjust cpu.flags cpu.registers.a).1 }
          flags := (Alu.decimalAdjust cpu.flags cpu.registers.a).2
          pc := cpu.pc + 1 } :=
  execute_of_pure rfl

/-- The adjustment finds the sum that ACI has put in A, with its two carries. -/
theorem afterAll_addingDigits (cpu : Cpu) (first second : Byte) :
    let sum := Alu.add cpu.flags first second cpu.flags.cy
    let after := cpu.afterAll (executing (addingDigits first second))
    cpu.Succeeds (executing (addingDigits first second)) ∧
      after.registers.a = (Alu.decimalAdjust sum.2 sum.1).1 ∧
      after.flags = (Alu.decimalAdjust sum.2 sum.1).2 := by
  intro sum after
  have hdecode : Operation.decode 0xCE = .arithmeticImmediate .adc := rfl
  obtain ⟨hsucceeds, hadded⟩ := afterAll_operating hdecode cpu first second
  have hsplit : executing (addingDigits first second) =
      executing (operating 0xCE first second) ++ [.execute ⟨0x27, 0, 0⟩] :=
    executing_append _ _
  obtain ⟨hdone, hadjusted⟩ :=
    execute_daa (cpu.afterAll (executing (operating 0xCE first second)))
  have hafter : after = ((cpu.afterAll (executing (operating 0xCE first second))).execute
      ⟨0x27, 0, 0⟩).state := by
    change cpu.afterAll _ = _
    rw [hsplit, afterAll_append]
    rfl
  rw [hafter, hadjusted, hadded, hsplit]
  exact ⟨hsucceeds.append (succeeds_cons hdone rfl (by simp [Succeeds, history])), rfl, rfl⟩

theorem links_addingDigits : Links addingDigits IsDecimal decimal 100 1 where
  succeeds cpu first second := (afterAll_addingDigits cpu first second).1
  isDigit := by
    intro cpu first second hfirst hsecond
    obtain ⟨_, ha, _⟩ := afterAll_addingDigits cpu first second
    rw [ha]
    exact ((Alu.sums_add cpu.flags first second cpu.flags.cy).adjusted hfirst hsecond).1
  law := by
    intro cpu first second hfirst hsecond after
    obtain ⟨_, ha, hflags⟩ := afterAll_addingDigits cpu first second
    have htotal :=
      ((Alu.sums_add cpu.flags first second cpu.flags.cy).adjusted hfirst hsecond).2
    change (decimal after.registers.a : Int) + 1 * (100 * after.flags.cy.toNat) = _
    rw [ha, hflags]
    omega

/-- Adding two packed decimal numbers gives packed decimal bytes throughout. They write the sum
with the carry that was there, but for a carry of the weight above them. Every instruction
succeeds. -/
theorem decimal_chains_add (cpu : Cpu) (first second : List Byte)
    (hlength : first.length = second.length) (hfirst : ∀ x ∈ first, IsDecimal x)
    (hsecond : ∀ y ∈ second, IsDecimal y) :
    let sum := cpu.collected (addingDecimal first second)
    let after := cpu.afterAll (executing (addingDecimal first second).flatten)
    cpu.Succeeds (executing (addingDecimal first second).flatten) ∧
      sum.length = first.length ∧ (∀ byte ∈ sum, IsDecimal byte) ∧
      numeral 100 decimal sum + 100 ^ first.length * after.flags.cy.toNat =
        numeral 100 decimal first + numeral 100 decimal second + cpu.flags.cy.toNat := by
  intro sum after
  obtain ⟨hcount, hdigits, _⟩ := links_addingDigits.chain cpu hlength hfirst hsecond
  exact ⟨links_addingDigits.succeeds_chain cpu first second, hcount, hdigits,
    links_addingDigits.sum cpu hlength hfirst hsecond⟩

/-- A processor that has a carry from digits further down. -/
def carryingDigits : Cpu where
  flags := { cy := true }

/-- 9567 and 458 and the carry come to 10026: what is left is 26, and a carry. -/
theorem decimal_chains_add_of_carryingDigits :
    (∀ byte ∈ carryingDigits.collected (addingDecimal [0x67, 0x95] [0x58, 0x04]),
      IsDecimal byte) ∧
    numeral 100 decimal (carryingDigits.collected (addingDecimal [0x67, 0x95] [0x58, 0x04])) =
      26 ∧
    (carryingDigits.afterAll
      (executing (addingDecimal [0x67, 0x95] [0x58, 0x04]).flatten)).flags.cy = true := by
  have hfirst : ∀ x ∈ [0x67, 0x95], IsDecimal x := by decide
  have hsecond : ∀ y ∈ [0x58, 0x04], IsDecimal y := by decide
  obtain ⟨_, hlength, hdigits, hsum⟩ :=
    decimal_chains_add carryingDigits [0x67, 0x95] [0x58, 0x04] rfl hfirst hsecond
  have htotal : numeral 100 decimal [0x67, 0x95] + numeral 100 decimal [0x58, 0x04] +
      carryingDigits.flags.cy.toNat = 10026 := rfl
  have hbelow := numeral_lt (by decide) fun byte hbyte => (hdigits byte hbyte).lt
  have hle := Bool.toNat_le (carryingDigits.afterAll
    (executing (addingDecimal [0x67, 0x95] [0x58, 0x04]).flatten)).flags.cy
  rw [hlength] at hbelow
  rw [htotal] at hsum
  simp only [List.length_cons, List.length_nil] at hsum hbelow
  exact ⟨hdigits, by omega, Bool.toNat_eq_one.mp (by omega)⟩

end Cpu

end Arcade8080
