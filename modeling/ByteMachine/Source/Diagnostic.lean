import ByteMachine.Instruction.Encoding
import ByteMachine.Text.Quoted

/-!
# Diagnostics

A rejected text is answered with what is wrong and on which line, for every line that is wrong.
-/
namespace ByteMachine

structure Diagnostic (Cause : Type) where
  line : Nat
  cause : Cause
  deriving DecidableEq, Repr

inductive SourceError where
  | invalidName (name : Text)
  | reservedName (name : Text)
  | alreadyDefined (name : Text) (line : Nat)
  | malformedDefine
  | invalidLiteral (token : Text)
  | undefinedSymbol (token : Text)
  | registerOutOfRange (token : Text)
  | expectedRegister (token : Text)
  | unknownCondition (token : Text)
  | valueOutOfRange (context : String) (value low high : Int)
  | unknownMnemonic (token : Text)
  | operandCount (mnemonic : Mnemonic) (count : Nat)
  | misfitOperands (mnemonic : Mnemonic)
  | unencodable (error : EncodeError)
  | programTooLong (count : Nat)
  deriving DecidableEq, Repr

inductive ImageError where
  | malformedWord (digits : Text)
  | imageTooLong (count : Nat)
  deriving DecidableEq, Repr

def SourceError.message : SourceError → String
  | invalidName name => s!"invalid symbol name: {String.ofList name.quoted}"
  | reservedName name => s!"symbol name is reserved: {String.ofList name}"
  | alreadyDefined name line =>
    s!"symbol '{String.ofList name}' already defined on line {line + 1}"
  | malformedDefine => "define: expected 'define NAME VALUE'"
  | invalidLiteral token => s!"invalid literal: {String.ofList token}"
  | undefinedSymbol token => s!"undefined symbol: {String.ofList token}"
  | registerOutOfRange token => s!"register out of range: {String.ofList token} (r0..r15)"
  | expectedRegister token => s!"expected register, got {String.ofList token}"
  | unknownCondition token => s!"brh: unknown condition: {String.ofList token}"
  | valueOutOfRange context value low high =>
    s!"{context}: value {value} out of range ({low}..{high})"
  | unknownMnemonic token => s!"unknown mnemonic: {String.ofList token}"
  | operandCount m count => s!"{m.name}: expected {m.shape.usage}, got {count} operand(s)"
  | misfitOperands m => s!"{m.name}: operands do not fit"
  | unencodable error => error.message
  | programTooLong count => s!"program has {count} instructions, limit is {programLimit}"

def ImageError.message : ImageError → String
  | malformedWord digits => s!"expected 16 binary digits, got {String.ofList digits.quoted}"
  | imageTooLong count => s!"image has {count} words, limit is {programLimit}"

/-- Lines are counted from one for the reader. -/
def Diagnostic.text {Cause : Type} (message : Cause → String) (d : Diagnostic Cause) : String :=
  s!"line {d.line + 1}: {message d.cause}"

def reportText {Cause : Type} (message : Cause → String) (ds : List (Diagnostic Cause)) : String :=
  "\n".intercalate (ds.map (Diagnostic.text message))

end ByteMachine
