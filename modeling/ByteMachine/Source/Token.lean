import ByteMachine.Instruction.Condition
import ByteMachine.Instruction.Mnemonic
import ByteMachine.Text.Numeral

/-!
# Tokens of an operand list

What a single word of source text can denote: a register, a literal or a symbol. A name that is a
mnemonic, a condition, a register or the word `define` in any letter case is reserved.
-/
namespace ByteMachine

namespace Text

def isOperandSeparator (c : Char) : Bool := c == ',' || isBlank c

def operandTokens (s : Text) : List Text := s.words isOperandSeparator

/-- The letter `r` and a number, whether or not there is such a register. -/
def looksLikeRegister (s : Text) : Bool :=
  match s.trim with
  | c :: d :: rest => (c == 'r' || c == 'R') && (d :: rest).all Char.isDigit
  | _ => false

def register? (s : Text) : Option UInt8 :=
  if s.looksLikeRegister then
    (read? 10 (s.trim.drop 1)).bind fun n => if n < 16 then some (UInt8.ofNat n) else none
  else none

/-- The greatest number that a literal can have after its sign. -/
def literalLimit : Nat := 0x7FFFFFFFFFFFFFFF

/-- An unsigned literal in base sixteen, two or ten. -/
def magnitude? (s : Text) : Option Nat :=
  let value :=
    match s with
    | '0' :: 'x' :: digits => read? 16 digits
    | '0' :: 'X' :: digits => read? 16 digits
    | '0' :: 'b' :: digits => read? 2 digits
    | '0' :: 'B' :: digits => read? 2 digits
    | digits => read? 10 digits
  value.filter (· ≤ literalLimit)

def literal? (s : Text) : Option Int :=
  match s.trim with
  | '-' :: body => (magnitude? body).map fun n : Nat => -(n : Int)
  | body => (magnitude? body).map fun n : Nat => (n : Int)

def isSymbolName : Text → Bool
  | [] => false
  | c :: rest => (c.isAlpha || c == '_') && rest.all fun c => c.isAlphanum || c == '_'

def defineWord : Text := "define".toList

def isReserved (s : Text) : Bool :=
  (Mnemonic.ofToken? s).isSome || (Condition.ofToken? s).isSome || s.sameFolded defineWord ||
    s.looksLikeRegister

end Text
end ByteMachine
