import ByteMachine.Source.Line
import ByteMachine.Source.Program
import ByteMachine.Source.Symbols

/-!
# Assembly

Source text becomes a program in two passes over its lines. The first binds symbols and gives each
line that carries an instruction its address; the second encodes those instructions under the
symbols of the whole text, so an operand may refer to a label further down. A line that is wrong
does not keep the others from being read, and all that is wrong is reported in the order of the
lines.
-/
namespace ByteMachine

/-- What a line says: a definition, a label with an instruction after it or with nothing, or an
instruction. -/
inductive Statement where
  | define (operands : Text)
  | label (name code : Text)
  | instruction (code : Text)
  deriving DecidableEq, Repr

namespace Statement

def ofText (line : Text) : Statement :=
  let (head, rest) := line.splitHead
  if head.sameFolded Text.defineWord then .define rest
  else match head with
    | '.' :: name => .label name rest
    | _ => .instruction line

/-- The text of the instruction that the line carries. -/
def code? : Statement → Option Text
  | define _ => none
  | label _ code => if code.isEmpty then none else some code
  | instruction code => some code

/-- The symbols after the line. A label has the address of the next instruction. -/
def bind (symbols : Symbols) (address line : Nat) : Statement → Except SourceError Symbols
  | define operands => symbols.define operands line
  | label name _ => symbols.bind name address line
  | instruction _ => .ok symbols

end Statement

/-- A line after the first pass: what was wrong with its symbol, and its instruction with the
address that the instruction has. -/
structure AssemblyRow where
  line : Nat
  symbolError : Option SourceError
  address : Nat
  code : Option Text
  deriving DecidableEq, Repr

/-- The first pass, from the symbols and the address that the lines before have left. -/
def scanLines : List SourceLine → Symbols → Nat → List AssemblyRow × Symbols
  | [], symbols, _ => ([], symbols)
  | l :: rest, symbols, address =>
    let statement := Statement.ofText l.text
    let next := if statement.code?.isSome then address + 1 else address
    match statement.bind symbols address l.number with
    | .ok bound =>
      let (rows, final) := scanLines rest bound next
      (⟨l.number, none, address, statement.code?⟩ :: rows, final)
    | .error e =>
      let (rows, final) := scanLines rest symbols next
      (⟨l.number, some e, address, statement.code?⟩ :: rows, final)

/-- A value within bounds, ends included. -/
def checkRange (context : String) (low high value : Int) : Except SourceError Int :=
  if value < low ∨ high < value then .error (.valueOutOfRange context value low high) else .ok value

namespace Symbols

def readRegister (token : Text) : Except SourceError UInt8 :=
  match token.register? with
  | some r => .ok r
  | none =>
    if token.looksLikeRegister then .error (.registerOutOfRange token)
    else .error (.expectedRegister token)

def readCondition (token : Text) : Except SourceError Condition :=
  match Condition.ofToken? token with
  | some c => .ok c
  | none => .error (.unknownCondition token)

/-- A byte may be written as a signed or as an unsigned number. -/
def readImmediate (t : Symbols) (m : Mnemonic) (token : Text) : Except SourceError UInt8 := do
  let value ← checkRange m.name (-128) 255 (← t.resolve token)
  return UInt8.ofNat (value % 256).toNat

def readAddress (t : Symbols) (m : Mnemonic) (token : Text) : Except SourceError UInt16 := do
  let value ← checkRange m.name 0 (programLimit - 1) (← t.resolve token)
  return UInt16.ofNat value.toNat

def readOffset (t : Symbols) (m : Mnemonic) (token : Text) : Except SourceError Int8 := do
  let value ← checkRange m.name (-8) 7 (← t.resolve token)
  return Int8.ofInt value

/-- The operands of a mnemonic from the words after it. An offset may be left out. -/
def readOperands (t : Symbols) (m : Mnemonic) :
    (shape : Shape) → List Text → Except SourceError (Operands shape)
  | .none, [] => .ok .none
  | .reg, [a] => do return .reg (← readRegister a)
  | .regReg, [a, b] => do return .regReg (← readRegister a) (← readRegister b)
  | .regRegReg, [a, b, c] => do
    return .regRegReg (← readRegister a) (← readRegister b) (← readRegister c)
  | .regImm8, [a, imm] => do return .regImm8 (← readRegister a) (← t.readImmediate m imm)
  | .addr10, [addr] => do return .addr10 (← t.readAddress m addr)
  | .condAddr10, [cond, addr] => do
    return .condAddr10 (← readCondition cond) (← t.readAddress m addr)
  | .regRegOffset, [a, b] => do return .regRegOffset (← readRegister a) (← readRegister b) 0
  | .regRegOffset, [a, b, offset] => do
    return .regRegOffset (← readRegister a) (← readRegister b) (← t.readOffset m offset)
  | _, tokens => .error (.operandCount m tokens.length)

def readInstruction (t : Symbols) (code : Text) : Except SourceError Instruction :=
  let (head, rest) := code.splitHead
  match Mnemonic.ofToken? head with
  | none => .error (.unknownMnemonic head)
  | some m => do
    let operands ← t.readOperands m m.shape rest.operandTokens
    match Instruction.build? m ⟨_, operands⟩ with
    | some i => return i
    | none => throw (.misfitOperands m)

def encodeLine (t : Symbols) (code : Text) : Except SourceError UInt16 := do
  (← t.readInstruction code).encode.mapError .unencodable

end Symbols

namespace AssemblyRow

/-- What is wrong with a line: its symbol, its place beyond the limit, its instruction. Only the
first instruction beyond the limit is reported for its place. -/
def errors (symbols : Symbols) (total : Nat) (row : AssemblyRow) : List SourceError :=
  row.symbolError.toList ++
    match row.code with
    | none => []
    | some code =>
      (if row.address = programLimit then [.programTooLong total] else []) ++
        match symbols.encodeLine code with
        | .ok _ => []
        | .error e => [e]

def diagnostics (symbols : Symbols) (total : Nat) (row : AssemblyRow) :
    List (Diagnostic SourceError) :=
  (row.errors symbols total).map fun e => ⟨row.line, e⟩

/-- The word of a line, with the number of the line. -/
def word? (symbols : Symbols) (row : AssemblyRow) : Option (UInt16 × Nat) :=
  row.code.bind fun code => (symbols.encodeLine code).toOption.map fun w => (w, row.line)

end AssemblyRow

/-- The program that a source text denotes, or all that is wrong with the text. -/
def assemble (source : Text) : Except (List (Diagnostic SourceError)) Program :=
  let (rows, symbols) := scanLines (SourceLine.ofText source) {} 0
  let total := (rows.filter (·.code.isSome)).length
  match rows.flatMap (AssemblyRow.diagnostics symbols total) with
  | [] => .ok (Program.ofList (rows.filterMap (AssemblyRow.word? symbols)))
  | diagnostics => .error diagnostics

end ByteMachine
