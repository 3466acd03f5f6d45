/-!
The range of addresses where a board lets the processor store. It belongs to
the board's memory map and not to the processor: a store outside the window
still has to hit memory, and is then dropped.
-/

namespace Arcade8080

/-- The largest address a host can name, one of 64 bits. -/
def Address.last : Nat := 0xFFFFFFFFFFFFFFFF

/-- The address `count` bytes on from another, where a host can name it. -/
def Address.add? (start count : Nat) : Option Nat :=
  if start + count ≤ Address.last then some (start + count) else none

/-- The addresses from `start` up to, but not including, `stop`. A window whose
ends are equal or the wrong way round is empty. -/
structure Window where
  start : Nat
  stop : Nat
  deriving DecidableEq

namespace Window

/-- Work and video RAM of the arcade board; its ROM lies below. -/
def arcade : Window := ⟨0x2000, 0x4000⟩

/-- Every address that memory can have. -/
def unrestricted : Window := ⟨0, Address.last⟩

def contains (window : Window) (addr : Nat) : Bool :=
  decide (window.start ≤ addr) && decide (addr < window.stop)

@[simp] theorem contains_iff (window : Window) (addr : Nat) :
    window.contains addr = true ↔ window.start ≤ addr ∧ addr < window.stop := by
  simp [contains]

end Window

end Arcade8080
