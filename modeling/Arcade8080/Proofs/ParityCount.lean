import Mathlib.Algebra.Group.Nat.Even
import Mathlib.Data.Nat.Count
import Arcade8080.Alu.Checked
import Arcade8080.Parity.Lemmas

/-!
Parity is told bit by bit. Without any bits it is even, each bit that is set turns it over, and
past the last bit nothing is left to turn it. That is all there is to say: it comes to whether
the bits below the size that are set are even in number.
-/

namespace Arcade8080.Parity

theorem countP_range_eq_count (p : Nat → Bool) (bound : Nat) :
    (List.range bound).countP p = Nat.count (fun index => p index = true) bound := by
  induction bound with
  | zero => rfl
  | succ bound ih =>
    rw [List.range_succ, List.countP_append, List.countP_singleton, ih, Nat.count_succ]

section

variable {value : BitVec 32} {size : Nat}

theorem even_eq_true_iff :
    even value size = true ↔
      Even (Nat.count (fun index => value.getLsbD index = true) (min size 32)) := by
  rw [even, ones_and_mask, countP_range_eq_count, beq_iff_eq, Nat.even_iff]

theorem even_zero (value : BitVec 32) : even value 0 = true :=
  even_eq_true_iff.mpr (by simp)

/-- One bit more turns the parity over where that bit is set. -/
theorem even_succ (hsize : size < 32) :
    even value (size + 1) = (even value size ^^ value.getLsbD size) := by
  have hbefore : min size 32 = size := by omega
  have hafter : min (size + 1) 32 = size + 1 := by omega
  rw [Bool.eq_iff_iff, even_eq_true_iff, hafter, Nat.count_succ]
  have hiff := @even_eq_true_iff value size
  rw [hbefore] at hiff
  cases value.getLsbD size with
  | false => simpa using hiff.symm
  | true => simpa [Nat.even_add_one] using (not_congr hiff).symm

/-- There are no bits past the last one. -/
theorem even_of_le (hsize : 32 ≤ size) : even value size = even value 32 := by
  rw [even, even, ones_and_mask, ones_and_mask, Nat.min_eq_right hsize, Nat.min_self]

end

/-- A parity for each size that the bits of a value turn over one after the other. -/
structure Alternates (value : BitVec 32) (parity : Nat → Bool) : Prop where
  zero : parity 0 = true
  succ : ∀ size < 32, (parity (size + 1) ≠ parity size ↔ value.getLsbD size = true)
  last : ∀ size, 32 ≤ size → parity size = parity 32

theorem alternates_even (value : BitVec 32) : Alternates value (even value) where
  zero := even_zero value
  succ size hsize := by
    rw [even_succ hsize]
    cases even value size <;> cases value.getLsbD size <;> decide
  last _ hsize := even_of_le hsize

/-- Two parities that begin alike and turn over at the same bits are the same throughout. -/
theorem Alternates.unique {value : BitVec 32} {first second : Nat → Bool}
    (hfirst : Alternates value first) (hsecond : Alternates value second) : first = second := by
  have hlow (size : Nat) (hsize : size ≤ 32) : first size = second size := by
    induction size with
    | zero => rw [hfirst.zero, hsecond.zero]
    | succ size ih =>
      have hbefore := ih (by omega)
      have hturn := (hfirst.succ size (by omega)).trans (hsecond.succ size (by omega)).symm
      rw [hbefore] at hturn
      revert hturn
      cases first (size + 1) <;> cases second (size + 1) <;> cases second size <;> decide
  funext size
  rcases Nat.le_total size 32 with hsize | hsize
  · exact hlow size hsize
  · rw [hfirst.last size hsize, hsecond.last size hsize]
    exact hlow 32 (Nat.le_refl 32)

/-- Bits that are set in both values cancel, and take two away from what was counted. -/
theorem even_xor (value other : BitVec 32) (size : Nat) :
    even (value ^^^ other) size = (even value size == even other size) := by
  have halternates : Alternates (value ^^^ other) fun size =>
      (even value size == even other size) := by
    constructor
    case zero =>
      rw [even_zero, even_zero]
      rfl
    case succ =>
      intro size hsize
      rw [even_succ hsize, even_succ hsize, BitVec.getLsbD_xor]
      cases even value size <;> cases even other size <;> cases value.getLsbD size <;>
        cases other.getLsbD size <;> decide
    case last =>
      intro size hsize
      rw [even_of_le hsize, even_of_le hsize]
  exact congrFun ((alternates_even _).unique halternates) size

/-- Parity tells whether the bits below the size that are set are even in number, which is the
same as to say that it begins as even, is turned over by each such bit and stays as it is past
the last one. Its mask is always defined. The parity of a byte is the one for eight bits, and
where two bytes are combined bit by bit, it tells whether theirs are the same. -/
theorem parity_counts_the_low_bits :
    (∀ (value : BitVec 32) (size : Nat), even value size = true ↔
      Even (Nat.count (fun index => value.getLsbD index = true) (min size 32))) ∧
    (∀ (value : BitVec 32) (parity : Nat → Bool),
      Alternates value parity ↔ parity = even value) ∧
    (∀ value size : BitVec 32, even? value size = some (even value size.toNat)) ∧
    ∀ byte other : Byte, evenByte byte = even (byte.setWidth 32) 8 ∧
      evenByte (byte ^^^ other) = (evenByte byte == evenByte other) := by
  refine ⟨fun _ _ => even_eq_true_iff, ?_, even?_eq, ?_⟩
  · intro value parity
    constructor
    · exact fun h => h.unique (alternates_even value)
    · rintro rfl
      exact alternates_even value
  · intro byte other
    refine ⟨rfl, ?_⟩
    rw [evenByte, BitVec.setWidth_xor]
    exact even_xor (byte.setWidth 32) (other.setWidth 32) 8

/-- The top bit counts from size 32 on, and no size is too large. -/
example : even 0x80000000 31 = true ∧ even 0x80000000 32 = false ∧
    even 0x80000000 0xFFFFFFFF = false := by decide

end Arcade8080.Parity
