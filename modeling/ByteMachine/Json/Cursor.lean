import ByteMachine.Text.Basic

/-!
# Reading positions

A cursor holds the text still to be read and the number of bytes read before it. A failure names
what was wrong and the column where it was noticed: the number of bytes that had been read or looked
at.
-/
namespace ByteMachine.Json

inductive SyntaxError where
  | eofValue
  | eofString
  | eofList
  | eofObject
  | expectedValue
  | expectedIdent
  | expectedColon
  | expectedCommaOrBracket
  | expectedCommaOrBrace
  | trailingComma
  | trailingCharacters
  | keyNotString
  | invalidNumber
  | numberOutOfRange
  | invalidEscape
  | loneSurrogate
  | unexpectedEndOfEscape
  | controlCharacter
  | recursionLimit
  deriving DecidableEq, Repr

def SyntaxError.message : SyntaxError → String
  | eofValue => "EOF while parsing a value"
  | eofString => "EOF while parsing a string"
  | eofList => "EOF while parsing a list"
  | eofObject => "EOF while parsing an object"
  | expectedValue => "expected value"
  | expectedIdent => "expected ident"
  | expectedColon => "expected `:`"
  | expectedCommaOrBracket => "expected `,` or `]`"
  | expectedCommaOrBrace => "expected `,` or `\x7d`"
  | trailingComma => "trailing comma"
  | trailingCharacters => "trailing characters"
  | keyNotString => "key must be a string"
  | invalidNumber => "invalid number"
  | numberOutOfRange => "number out of range"
  | invalidEscape => "invalid escape"
  | loneSurrogate => "lone leading surrogate in hex escape"
  | unexpectedEndOfEscape => "unexpected end of hex escape"
  | controlCharacter => "control character (\\u0000-\\u001F) found while parsing a string"
  | recursionLimit => "recursion limit exceeded"

structure Failure where
  error : SyntaxError
  column : Nat
  deriving DecidableEq, Repr

structure Cursor where
  rest : Text
  column : Nat
  deriving DecidableEq, Repr

def byteLength (s : Text) : Nat := s.foldr (fun c n => c.utf8Size + n) 0

def isSpace (c : Char) : Bool := c == ' ' || c == '\n' || c == '\t' || c == '\r'

namespace Cursor

def start (line : Text) : Cursor := ⟨line, 0⟩

def skipSpace (c : Cursor) : Cursor :=
  ⟨c.rest.dropWhile isSpace, c.column + (c.rest.takeWhile isSpace).length⟩

/-- The cursor after some characters of one byte each. -/
def drop (c : Cursor) (n : Nat) : Cursor := ⟨c.rest.drop n, c.column + n⟩

/-- A failure noticed after what has been read. -/
def fail {α : Type} (c : Cursor) (e : SyntaxError) : Except Failure α := .error ⟨e, c.column⟩

/-- A failure noticed by a look at the next byte, if there is one. -/
def failPeek {α : Type} (c : Cursor) (e : SyntaxError) : Except Failure α :=
  .error ⟨e, if c.rest.isEmpty then c.column else c.column + 1⟩

/-- Reads the letters of a word, whose first letter has been seen. -/
def readLetters : Text → Cursor → Except Failure Cursor
  | [], c => .ok c
  | letter :: letters, c =>
    match c.rest with
    | [] => c.fail .eofValue
    | next :: _ => if next = letter then readLetters letters (c.drop 1) else
        (c.drop 1).fail .expectedIdent

end Cursor
end ByteMachine.Json
