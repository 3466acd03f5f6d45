import Mathlib.Data.Nat.Digits.Lemmas
import Mathlib.Tactic.LinearCombination
import Arcade8080.Cpu.Call
import Arcade8080.Cpu.Operand

/-!
Arithmetic on numbers of any length, digit by digit: a group of instructions for each pair of
digits, with the least significant pair first, leaves a digit in A and passes a carry on to the
next group. What one group makes of its digits and the carry, all groups together make of the
numbers and the carry.
-/

namespace Arcade8080.Cpu

/-- The calls that execute some instructions. -/
def executing (instructions : List Instruction) : List Call := instructions.map .execute

/-- What A holds after each group of instructions. -/
def collected (cpu : Cpu) : List (List Instruction) → List Byte
  | [] => []
  | group :: rest =>
    let after := cpu.afterAll (executing group)
    after.registers.a :: after.collected rest

/-- All of the calls succeed. -/
def Succeeds (cpu : Cpu) (calls : List Call) : Prop :=
  ∀ event ∈ cpu.history calls, event.outcome.isSome = true

theorem executing_append (early late : List Instruction) :
    executing (early ++ late) = executing early ++ executing late :=
  List.map_append

theorem afterAll_append (cpu : Cpu) (early late : List Call) :
    cpu.afterAll (early ++ late) = (cpu.afterAll early).afterAll late :=
  List.foldl_append

theorem Succeeds.append {cpu : Cpu} {early late : List Call} (first : cpu.Succeeds early)
    (rest : (cpu.afterAll early).Succeeds late) : cpu.Succeeds (early ++ late) := by
  induction early generalizing cpu with
  | nil => exact rest
  | cons call early ih =>
    obtain ⟨hcall, hearly⟩ := List.forall_mem_cons.mp first
    exact List.forall_mem_cons.mpr ⟨hcall, ih hearly rest⟩

/-- The state and the success of an instruction and then of others. -/
theorem succeeds_cons {cpu after : Cpu} {instruction : Instruction} {rest : List Call}
    {outcome : StepOutcome} (hresult : (cpu.execute instruction).result = .ok outcome)
    (hstate : (cpu.execute instruction).state = after) (hrest : after.Succeeds rest) :
    cpu.Succeeds (.execute instruction :: rest) := by
  subst hstate
  refine List.forall_mem_cons.mpr ⟨?_, hrest⟩
  rw [outcome?, hresult]
  rfl

/-- The instructions succeed one after the other, and this is what they leave. -/
structure Runs (cpu : Cpu) (instructions : List Instruction) (after : Cpu) : Prop where
  succeeds : cpu.Succeeds (executing instructions)
  after : cpu.afterAll (executing instructions) = after

theorem runs_pair {cpu middle after : Cpu} {first second : Instruction}
    {outcome ended : StepOutcome}
    (hfirst : (cpu.execute first).result = .ok outcome ∧ (cpu.execute first).state = middle)
    (hsecond : (middle.execute second).result = .ok ended ∧
      (middle.execute second).state = after) :
    cpu.Runs [first, second] after := by
  obtain ⟨hresult, rfl⟩ := hfirst
  obtain ⟨hended, rfl⟩ := hsecond
  exact ⟨succeeds_cons hresult rfl (succeeds_cons hended rfl (by simp [Succeeds, history])), rfl⟩

/-- MVI A and an arithmetic instruction with an immediate byte: what a group begins with. -/
def operating (opcode first second : Byte) : List Instruction :=
  [⟨0x3E, first, 0⟩, ⟨opcode, second, 0⟩]

/-- The operation finds in A what MVI has put there, and the carry as it was. -/
theorem afterAll_operating {opcode : Byte} {kind : Arithmetic}
    (h : Operation.decode opcode = .arithmeticImmediate kind) (cpu : Cpu) (first second : Byte) :
    cpu.Succeeds (executing (operating opcode first second)) ∧
    cpu.afterAll (executing (operating opcode first second)) =
      { cpu with
        toCore := { (cpu.withA first).computed kind second with pc := cpu.pc + 2 + 2 } } := by
  have hdecode : Operation.decode 0x3E = .mvi (.register .a) := rfl
  have hoperation : (⟨0x3E, first, 0⟩ : Instruction).operation = .mvi (.register .a) := hdecode
  have hmove : (cpu.past ⟨0x3E, first, 0⟩).perform ⟨0x3E, first, 0⟩ = pure
      { (cpu.withA first).toCore with pc := cpu.pc + 2 } := by
    simp only [Core.past, Core.perform, hoperation]
    rfl
  obtain ⟨hmoved, hstate⟩ := execute_of_pure hmove
  have hroute : (⟨opcode, second, 0⟩ : Instruction).operation = Route.immediate.operation kind := h
  have hfound : (cpu.execute ⟨0x3E, first, 0⟩).state.routed?
      (cpu.execute ⟨0x3E, first, 0⟩).state.memory ⟨opcode, second, 0⟩ .immediate =
        some second := rfl
  obtain ⟨hcomputed, hafter⟩ := execute_of_routed hroute hfound
  constructor
  · exact succeeds_cons hmoved rfl (succeeds_cons hcomputed rfl (by simp [Succeeds, history]))
  · change ((cpu.execute ⟨0x3E, first, 0⟩).state.execute ⟨opcode, second, 0⟩).state = _
    rw [hafter, hstate]
    rfl

theorem length_collected (cpu : Cpu) (groups : List (List Instruction)) :
    (cpu.collected groups).length = groups.length := by
  induction groups generalizing cpu with
  | nil => rfl
  | cons group rest ih => exact congrArg Nat.succ (ih _)

/-- Groups that succeed wherever they begin succeed one after the other. -/
theorem succeeds_flatten {groups : List (List Instruction)}
    (h : ∀ group ∈ groups, ∀ cpu : Cpu, cpu.Succeeds (executing group)) (cpu : Cpu) :
    cpu.Succeeds (executing groups.flatten) := by
  induction groups generalizing cpu with
  | nil => simp [Succeeds, executing, history]
  | cons group rest ih =>
    obtain ⟨hgroup, hrest⟩ := List.forall_mem_cons.mp h
    rw [List.flatten_cons, executing_append]
    exact (hgroup cpu).append (ih hrest _)

/-- The number that bytes write, each of them a digit, from the least significant one up. -/
def numeral (base : Nat) (digit : Byte → Nat) (bytes : List Byte) : Nat :=
  Nat.ofDigits base (bytes.map digit)

theorem numeral_cons (base : Nat) (digit : Byte → Nat) (byte : Byte) (rest : List Byte) :
    numeral base digit (byte :: rest) = digit byte + base * numeral base digit rest :=
  Nat.ofDigits_cons

theorem numeral_append (base : Nat) (digit : Byte → Nat) (low high : List Byte) :
    numeral base digit (low ++ high) =
      numeral base digit low + base ^ low.length * numeral base digit high := by
  rw [numeral, List.map_append, Nat.ofDigits_append, List.length_map]
  rfl

theorem numeral_singleton (base : Nat) (digit : Byte → Nat) (byte : Byte) :
    numeral base digit [byte] = digit byte :=
  Nat.ofDigits_singleton

theorem numeral_lt {base : Nat} {digit : Byte → Nat} {bytes : List Byte} (hbase : 1 < base)
    (h : ∀ byte ∈ bytes, digit byte < base) :
    numeral base digit bytes < base ^ bytes.length := by
  have hdigits : ∀ value ∈ bytes.map digit, value < base := by
    intro value hmem
    obtain ⟨byte, hbyte, rfl⟩ := List.mem_map.mp hmem
    exact h byte hbyte
  have hlt := Nat.ofDigits_lt_base_pow_length hbase hdigits
  rwa [List.length_map] at hlt

/-- A group for two bytes and the carry. It keeps to the bytes that stand for digits, and its
digit and the carry out make up for its operands and the carry in. The second operand and both
carries count with a sign, which tells addition from subtraction. -/
structure Links (group : Byte → Byte → List Instruction) (IsDigit : Byte → Prop)
    (digit : Byte → Nat) (base : Nat) (sign : Int) : Prop where
  succeeds : ∀ (cpu : Cpu) first second, cpu.Succeeds (executing (group first second))
  isDigit : ∀ (cpu : Cpu) first second, IsDigit first → IsDigit second →
    IsDigit (cpu.afterAll (executing (group first second))).registers.a
  law : ∀ (cpu : Cpu) first second, IsDigit first → IsDigit second →
    let after := cpu.afterAll (executing (group first second))
    (digit after.registers.a : Int) + sign * (base * after.flags.cy.toNat) =
      digit first + sign * (digit second + cpu.flags.cy.toNat)

namespace Links

variable {group : Byte → Byte → List Instruction} {IsDigit : Byte → Prop} {digit : Byte → Nat}
  {base : Nat} {sign : Int}

theorem succeeds_chain (h : Links group IsDigit digit base sign) (cpu : Cpu)
    (first second : List Byte) :
    cpu.Succeeds (executing (List.zipWith group first second).flatten) := by
  rw [← List.map_uncurry_zip_eq_zipWith]
  apply succeeds_flatten
  intro grouped hgrouped other
  obtain ⟨⟨x, y⟩, _, rfl⟩ := List.mem_map.mp hgrouped
  exact h.succeeds other x y

/-- What each group makes of its digits, all groups together make of the numbers. The induction
is on the first number; the carry that a group passes on is the one that the rest begin with. -/
theorem chain (h : Links group IsDigit digit base sign) (cpu : Cpu) {first second : List Byte}
    (hlength : first.length = second.length) (hfirst : ∀ x ∈ first, IsDigit x)
    (hsecond : ∀ y ∈ second, IsDigit y) :
    let results := cpu.collected (List.zipWith group first second)
    let after := cpu.afterAll (executing (List.zipWith group first second).flatten)
    results.length = first.length ∧ (∀ result ∈ results, IsDigit result) ∧
      (numeral base digit results : Int) +
          sign * (base ^ first.length * after.flags.cy.toNat) =
        numeral base digit first + sign * (numeral base digit second + cpu.flags.cy.toNat) := by
  induction first generalizing cpu second with
  | nil =>
    obtain rfl := List.length_eq_zero_iff.mp hlength.symm
    simp [collected, executing, numeral]
  | cons x first ih =>
    cases second with
    | nil => simp at hlength
    | cons y second =>
      obtain ⟨hx, hfirst⟩ := List.forall_mem_cons.mp hfirst
      obtain ⟨hy, hsecond⟩ := List.forall_mem_cons.mp hsecond
      obtain ⟨hcount, hdigits, hrest⟩ := ih (cpu.afterAll (executing (group x y)))
        (Nat.succ.inj hlength) hfirst hsecond
      have hstep := h.law cpu x y hx hy
      refine ⟨congrArg Nat.succ hcount, ?_, ?_⟩
      · exact List.forall_mem_cons.mpr ⟨h.isDigit cpu x y hx hy, hdigits⟩
      · rw [List.zipWith_cons_cons, List.flatten_cons, executing_append, afterAll_append]
        simp only [collected, numeral_cons, List.length_cons, pow_succ]
        push_cast
        linear_combination hstep + base * hrest

/-- Groups that add: all of what they make up for is positive. -/
theorem sum (h : Links group IsDigit digit base 1) (cpu : Cpu) {first second : List Byte}
    (hlength : first.length = second.length) (hfirst : ∀ x ∈ first, IsDigit x)
    (hsecond : ∀ y ∈ second, IsDigit y) :
    numeral base digit (cpu.collected (List.zipWith group first second)) +
        base ^ first.length *
          (cpu.afterAll
            (executing (List.zipWith group first second).flatten)).flags.cy.toNat =
      numeral base digit first + numeral base digit second + cpu.flags.cy.toNat := by
  have htotal := (h.chain cpu hlength hfirst hsecond).2.2
  rw [one_mul, one_mul, ← add_assoc] at htotal
  exact_mod_cast htotal

end Links

end Arcade8080.Cpu
