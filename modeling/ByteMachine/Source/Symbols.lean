import ByteMachine.Source.Diagnostic
import ByteMachine.Source.Token

/-!
# Symbols

A symbol is a name with a value, bound once by a definition or a label. Operands refer to it by its
name, with or without a point before it.
-/
namespace ByteMachine

structure SymbolBinding where
  value : Int
  line : Nat
  deriving DecidableEq, Repr

/-- The bound names, the latest first. -/
structure Symbols where
  bindings : List (Text × SymbolBinding) := []
  deriving DecidableEq, Repr

namespace Symbols

def find? (t : Symbols) (name : Text) : Option SymbolBinding := t.bindings.lookup name

def bind (t : Symbols) (name : Text) (value : Int) (line : Nat) : Except SourceError Symbols :=
  if !name.isSymbolName then .error (.invalidName name)
  else if name.isReserved then .error (.reservedName name)
  else match t.find? name with
    | some earlier => .error (.alreadyDefined name earlier.line)
    | none => .ok ⟨(name, ⟨value, line⟩) :: t.bindings⟩

/-- The value of a literal or of a bound symbol. -/
def resolve (t : Symbols) (token : Text) : Except SourceError Int :=
  match token.literal? with
  | some value => .ok value
  | none =>
    let name := match token with
      | '.' :: rest => rest
      | whole => whole
    if !name.isSymbolName then .error (.invalidLiteral token)
    else match t.find? name with
      | some binding => .ok binding.value
      | none => .error (.undefinedSymbol token)

/-- Binds a name to a value that must be known already. -/
def define (t : Symbols) (operands : Text) (line : Nat) : Except SourceError Symbols :=
  match operands.operandTokens with
  | [name, value] => do t.bind name (← t.resolve value) line
  | _ => .error .malformedDefine

end Symbols
end ByteMachine
