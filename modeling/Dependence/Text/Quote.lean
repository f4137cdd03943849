import Dependence.Text.Visible

/-!
# Quoted text

A text between double quotes on one line, as it is shown to a reader who wants to know exactly
which characters it has. Each character stands for itself, or is written as an escape that begins
with a backslash; a quote and a backslash are always escaped.
-/

namespace Dependence.Text

/-- How one character is written inside quotes. -/
def escape (c : Char) : List Char :=
  match c with
  | '\x00' => ['\\', '0']
  | '\t' => ['\\', 't']
  | '\n' => ['\\', 'n']
  | '\r' => ['\\', 'r']
  | '"' => ['\\', '"']
  | '\\' => ['\\', '\\']
  | c => if isVisible c then [c] else ['\\', 'u', '{'] ++ Nat.toDigits 16 c.toNat ++ ['}']

/-- A text between quotes. -/
def quote (s : String) : List Char := '"' :: s.toList.flatMap escape ++ ['"']

end Dependence.Text
