/-!
Upper-case hexadecimal text. `fixed` writes exactly as many digits as it is
told; `padded` writes at least that many and more when the number needs them,
so no number ever loses a digit.
-/

namespace Arcade8080.Text.Hex

/-- The character of one digit, for digits below sixteen. -/
def digit (value : Nat) : Char :=
  if value < 10 then Char.ofNat (48 + value) else Char.ofNat (55 + value)

/-- The lowest `width` digits, most significant first. -/
def digits : (width : Nat) → (value : Nat) → List Char
  | 0, _ => []
  | width + 1, value => digits width (value / 16) ++ [digit (value % 16)]

def fixed (width value : Nat) : String := String.ofList (digits width value)

/-- How many digits a number has without leading zeros; zero has one. -/
def digitCount (value : Nat) : Nat := value.log2 / 4 + 1

def padded (width value : Nat) : String := fixed (max width (digitCount value)) value

@[simp] theorem length_digits (width value : Nat) : (digits width value).length = width := by
  induction width generalizing value with
  | zero => rfl
  | succ width ih => simp [digits, ih]

end Arcade8080.Text.Hex
