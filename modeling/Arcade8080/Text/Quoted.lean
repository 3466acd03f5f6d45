import Arcade8080.Text.Visible

/-!
A name between double quotes, so that the text shows exactly which characters
it has. Quotes, backslashes and characters that do not show are escaped.
-/

namespace Arcade8080.Text.Quoted

def escape (c : Char) : List Char :=
  if c = '"' then ['\\', '"']
  else if c = '\\' then ['\\', '\\']
  else if c = '\t' then ['\\', 't']
  else if c = '\n' then ['\\', 'n']
  else if c = '\r' then ['\\', 'r']
  else if c.toNat = 0 then ['\\', '0']
  else if isVisible c then [c]
  else ['\\', 'u', '\x7b'] ++ Nat.toDigits 16 c.toNat ++ ['\x7d']

def quote (name : String) : String :=
  String.ofList (['"'] ++ name.toList.flatMap escape ++ ['"'])

end Arcade8080.Text.Quoted
