import Arcade8080.Proofs.BinaryChains
import Arcade8080.Proofs.InversePairs
import Arcade8080.Proofs.RegisterFrame
import Arcade8080.Proofs.SpecialArithmetic

/-!
Binary numbers of any length are doubled by RAL and halved by RAR, byte by byte. Doubling goes
from the least significant byte up and halving from the most significant one down, so that the
bit which leaves one byte enters the next one by way of the carry. No other flag takes part.
-/

namespace Arcade8080

namespace Alu

/-- What RAL leaves in A and the carry is twice the byte, with the old carry at the bottom. -/
theorem rotate_ral_total (carry : Bool) (a : Byte) :
    (rotate .ral carry a).1.toNat + 256 * (rotate .ral carry a).2.toNat =
      2 * a.toNat + carry.toNat := by
  have hsum := rotate_ral_eq { cy := carry } a
  have htotal := (sums_add { cy := carry } a a carry).total
  rw [hsum, htotal, Nat.two_mul]

/-- RAL would take back what RAR does, so A and the carry come from twice what RAR leaves. -/
theorem rotate_rar_total (carry : Bool) (a : Byte) :
    2 * (rotate .rar carry a).1.toNat + (rotate .rar carry a).2.toNat =
      a.toNat + 256 * carry.toNat := by
  have htotal := rotate_ral_total (rotate .rar carry a).2 (rotate .rar carry a).1
  rw [rotate_ral_rar] at htotal
  exact htotal.symm

end Alu

namespace Cpu

/-- MVI A and a rotation. -/
def rotating (opcode byte : Byte) : List Instruction := [⟨0x3E, byte, 0⟩, ⟨opcode, 0, 0⟩]

/-- MVI A and RAL for each byte of a number, from the least significant one up. -/
def doubling (bytes : List Byte) : List (List Instruction) := bytes.map (rotating 0x17)

/-- MVI A and RAR for each byte of a number, from the most significant one down. -/
def halving (bytes : List Byte) : List (List Instruction) := bytes.reverse.map (rotating 0x1F)

theorem operation_mvi_a (byte : Byte) :
    (⟨0x3E, byte, 0⟩ : Instruction).operation = .mvi (.register .a) := by
  have hdecode : Operation.decode 0x3E = .mvi (.register .a) := rfl
  exact hdecode

theorem acts_mvi_a (byte : Byte) :
    Core.Acts ⟨0x3E, byte, 0⟩ fun core =>
      { core with registers := { core.registers with a := byte } } := by
  constructor
  · intro core
    simp only [Core.perform, operation_mvi_a]
    rfl
  · exact fun core other => rfl

/-- The rotation finds in A what MVI has put there, and the carry as it was. -/
theorem afterAll_rotating {opcode : Byte} {kind : Rotation}
    (h : Operation.decode opcode = .rotate kind) (cpu : Cpu) (byte : Byte) :
    let after := cpu.afterAll (executing (rotating opcode byte))
    cpu.Succeeds (executing (rotating opcode byte)) ∧
      after.registers.a = (Alu.rotate kind cpu.flags.cy byte).1 ∧
      after.flags.cy = (Alu.rotate kind cpu.flags.cy byte).2 := by
  have hrotate : (⟨opcode, 0, 0⟩ : Instruction).operation = .rotate kind := h
  obtain ⟨hsucceeds, hafter⟩ := runs_of_acts (acts_mvi_a byte) (Core.acts_rotate hrotate) cpu
  intro after
  have hsame : after = _ := hafter
  rw [hsame]
  exact ⟨hsucceeds, rfl, rfl⟩

/-- The bit that a group passes on is the lowest one of the next digit. -/
theorem binary_doubling (cpu : Cpu) (bytes : List Byte) :
    binary (cpu.collected (doubling bytes)) + 256 ^ bytes.length *
        (cpu.afterAll (executing (doubling bytes).flatten)).flags.cy.toNat =
      2 * binary bytes + cpu.flags.cy.toNat := by
  induction bytes generalizing cpu with
  | nil => simp [doubling, collected, executing, binary, numeral]
  | cons byte bytes ih =>
    have hdecode : Operation.decode 0x17 = .rotate .ral := rfl
    obtain ⟨_, ha, hcy⟩ := afterAll_rotating hdecode cpu byte
    have hstep := Alu.rotate_ral_total cpu.flags.cy byte
    have hrest := ih (cpu.afterAll (executing (rotating 0x17 byte)))
    have hgroups : doubling (byte :: bytes) = rotating 0x17 byte :: doubling bytes := rfl
    rw [← ha, ← hcy] at hstep
    rw [hgroups, List.flatten_cons, executing_append, afterAll_append, List.length_cons, pow_succ]
    simp only [binary, collected, numeral_cons] at hrest ⊢
    linear_combination hstep + 256 * hrest

/-- Here the digits come from the top, so what a group passes on weighs as much as all digits
that are left. -/
theorem binary_halving (cpu : Cpu) (bytes : List Byte) :
    2 * binary (cpu.collected (bytes.map (rotating 0x1F))).reverse +
        (cpu.afterAll (executing (bytes.map (rotating 0x1F)).flatten)).flags.cy.toNat =
      binary bytes.reverse + cpu.flags.cy.toNat * 256 ^ bytes.length := by
  induction bytes generalizing cpu with
  | nil => simp [collected, executing, binary, numeral]
  | cons byte bytes ih =>
    have hdecode : Operation.decode 0x1F = .rotate .rar := rfl
    obtain ⟨_, ha, hcy⟩ := afterAll_rotating hdecode cpu byte
    have hstep := Alu.rotate_rar_total cpu.flags.cy byte
    have hrest := ih (cpu.afterAll (executing (rotating 0x1F byte)))
    rw [← ha, ← hcy] at hstep
    rw [List.map_cons, List.flatten_cons, executing_append, afterAll_append, List.length_cons,
      pow_succ]
    simp only [binary, collected, List.reverse_cons, numeral_append, numeral_singleton,
      List.length_reverse, length_collected, List.length_map] at hrest ⊢
    linear_combination 256 ^ bytes.length * hstep + hrest

/-- Instructions that are there to set some flags change no others, however many they are. -/
theorem flags_afterAll (cpu : Cpu) {changed : List Flag} {instructions : List Instruction}
    (h : ∀ instruction ∈ instructions, instruction.operation.flagTargets ⊆ changed) :
    cpu.flags.KeptOutside changed (cpu.afterAll (executing instructions)).flags := by
  induction instructions generalizing cpu with
  | nil => exact .refl changed cpu.flags
  | cons instruction rest ih =>
    obtain ⟨hfirst, hrest⟩ := List.forall_mem_cons.mp h
    intro flag hflag
    have hkept := (cpu.keepsTo_execute instruction).flags flag (mt (@hfirst flag) hflag)
    exact (ih (cpu.execute instruction).state hrest flag hflag).trans hkept

/-- MVI changes no flags, and a rotation none but the carry. -/
theorem flags_rotating {opcode : Byte} {kind : Rotation}
    (h : Operation.decode opcode = .rotate kind) (cpu : Cpu) (bytes : List Byte) (count : Nat) :
    cpu.flags.KeptOutside [.cy]
      (cpu.afterAll ((executing (bytes.map (rotating opcode)).flatten).take count)).flags := by
  have htargets : ∀ instruction ∈ ((bytes.map (rotating opcode)).flatten).take count,
      instruction.operation.flagTargets ⊆ [.cy] := by
    intro instruction hmem
    obtain ⟨group, hgroup, hinstruction⟩ := List.mem_flatten.mp (List.mem_of_mem_take hmem)
    obtain ⟨byte, _, rfl⟩ := List.mem_map.mp hgroup
    rcases List.mem_pair.mp hinstruction with rfl | rfl
    · rw [operation_mvi_a]
      exact List.nil_subset _
    · have hrotate : (⟨opcode, 0, 0⟩ : Instruction).operation = .rotate kind := h
      rw [hrotate]
      exact List.Subset.refl _
  rw [executing, ← List.map_take]
  exact flags_afterAll cpu htargets

theorem succeeds_rotating {opcode : Byte} {kind : Rotation}
    (h : Operation.decode opcode = .rotate kind) (cpu : Cpu) (bytes : List Byte) :
    cpu.Succeeds (executing (bytes.map (rotating opcode)).flatten) := by
  apply succeeds_flatten
  intro group hgroup other
  obtain ⟨byte, _, rfl⟩ := List.mem_map.mp hgroup
  exact (afterAll_rotating h other byte).1

/-- Rotating a number byte by byte through the carry, from the least significant byte up, gives
twice the number with the old carry at the bottom, and leaves the bit of the weight above it in
the carry. From the most significant byte down it gives half the number with the old carry on
top, and leaves what is odd. Every instruction succeeds, and none changes another flag. -/
theorem chains_double_and_halve (cpu : Cpu) (bytes : List Byte) :
    (let doubled := cpu.collected (doubling bytes)
      let calls := executing (doubling bytes).flatten
      cpu.Succeeds calls ∧ doubled.length = bytes.length ∧
      binary doubled + 256 ^ bytes.length * (cpu.afterAll calls).flags.cy.toNat =
        2 * binary bytes + cpu.flags.cy.toNat ∧
      ∀ count, cpu.flags.KeptOutside [.cy] (cpu.afterAll (calls.take count)).flags) ∧
    (let halved := (cpu.collected (halving bytes)).reverse
      let calls := executing (halving bytes).flatten
      cpu.Succeeds calls ∧ halved.length = bytes.length ∧
      2 * binary halved + (cpu.afterAll calls).flags.cy.toNat =
        binary bytes + cpu.flags.cy.toNat * 256 ^ bytes.length ∧
      ∀ count, cpu.flags.KeptOutside [.cy] (cpu.afterAll (calls.take count)).flags) := by
  have hral : Operation.decode 0x17 = .rotate .ral := rfl
  have hrar : Operation.decode 0x1F = .rotate .rar := rfl
  constructor
  · intro doubled calls
    refine ⟨succeeds_rotating hral cpu bytes, ?_, binary_doubling cpu bytes,
      flags_rotating hral cpu bytes⟩
    rw [length_collected, doubling, List.length_map]
  · intro halved calls
    have hvalue := binary_halving cpu bytes.reverse
    rw [List.reverse_reverse, List.length_reverse] at hvalue
    refine ⟨succeeds_rotating hrar cpu bytes.reverse, ?_, hvalue,
      flags_rotating hrar cpu bytes.reverse⟩
    rw [List.length_reverse, length_collected, halving, List.length_map, List.length_reverse]

/-- A carry that was there comes in at the bottom of one number and on top of the other. -/
example : carrying.collected (doubling [0x80, 0x00]) = [0x01, 0x01] ∧
    carrying.collected (halving [0x01, 0x00]) = [0x80, 0x00] := by decide

end Cpu

end Arcade8080
