import ByteMachine.Text.Numeral
import ByteMachine.Text.Unprintable

/-!
# Quoted text

How a message shows text that may hold anything: between double quotes, with a backslash before a
double quote and a backslash, short names for four controls, and the code point of every other
character that has no glyph of its own.
-/
namespace ByteMachine.Text

def escape (c : Char) : Text :=
  match c with
  | '"' => ['\\', '"']
  | '\\' => ['\\', '\\']
  | '\x00' => ['\\', '0']
  | '\t' => ['\\', 't']
  | '\r' => ['\\', 'r']
  | '\n' => ['\\', 'n']
  | c =>
    if isUnprintable c then ['\\', 'u', '\x7b'] ++ Nat.toDigits 16 c.toNat ++ ['\x7d'] else [c]

def quoted (s : Text) : Text := ['"'] ++ s.flatMap escape ++ ['"']

end ByteMachine.Text
