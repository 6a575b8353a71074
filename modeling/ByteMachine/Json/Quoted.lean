import ByteMachine.Json.Cursor
import ByteMachine.Text.Numeral

/-!
# Strings in JSON

A string ends at a double quote. A backslash starts an escape; a character outside the basic plane
may be escaped as two halves, which must stand together and in order.
-/
namespace ByteMachine.Json

/-- The number that four hexadecimal digits denote. -/
def hexQuad? (a b c d : Char) : Option Nat := Text.readFrom? 16 0 [a, b, c, d]

/-- Why four hexadecimal digits cannot be read from here. All four bytes are taken at once. -/
def quadFailure (rest : Text) (column : Nat) : Failure :=
  let length := byteLength rest
  if length < 4 then ⟨.eofString, column + length⟩ else ⟨.invalidEscape, column + 4⟩

def isHighHalf (n : Nat) : Bool := 0xD800 ≤ n && n ≤ 0xDBFF

def isLowHalf (n : Nat) : Bool := 0xDC00 ≤ n && n ≤ 0xDFFF

def joinHalves (high low : Nat) : Char :=
  Char.ofNat (0x10000 + (high - 0xD800) * 0x400 + (low - 0xDC00))

/-- The character that a one-letter escape denotes. -/
def simpleEscape? : Char → Option Char
  | '"' => some '"'
  | '\\' => some '\\'
  | '/' => some '/'
  | 'b' => some '\x08'
  | 'f' => some '\x0c'
  | 'n' => some '\n'
  | 'r' => some '\r'
  | 't' => some '\t'
  | _ => none

/-- Reads a string from the character after its opening quote; `read` holds the characters so far,
the last one first. -/
def readString (read : Text) (column : Nat) : Text → Except Failure (Text × Cursor)
  | [] => .error ⟨.eofString, column⟩
  | '"' :: rest => .ok (read.reverse, ⟨rest, column + 1⟩)
  | '\\' :: 'u' :: a :: b :: c :: d :: rest =>
    match hexQuad? a b c d with
    | none => .error (quadFailure (a :: b :: c :: d :: rest) (column + 2))
    | some n =>
      if isLowHalf n then .error ⟨.loneSurrogate, column + 6⟩
      else if isHighHalf n then
        match rest with
        | '\\' :: 'u' :: a :: b :: c :: d :: rest =>
          match hexQuad? a b c d with
          | none => .error (quadFailure (a :: b :: c :: d :: rest) (column + 8))
          | some low =>
            if isLowHalf low then readString (joinHalves n low :: read) (column + 12) rest
            else .error ⟨.loneSurrogate, column + 12⟩
        | '\\' :: 'u' :: rest => .error (quadFailure rest (column + 8))
        | '\\' :: [] => .error ⟨.eofString, column + 7⟩
        | '\\' :: _ => .error ⟨.unexpectedEndOfEscape, column + 8⟩
        | [] => .error ⟨.eofString, column + 6⟩
        | _ :: _ => .error ⟨.unexpectedEndOfEscape, column + 7⟩
      else readString (Char.ofNat n :: read) (column + 6) rest
  | '\\' :: 'u' :: rest => .error (quadFailure rest (column + 2))
  | '\\' :: [] => .error ⟨.eofString, column + 1⟩
  | '\\' :: e :: rest =>
    match simpleEscape? e with
    | some c => readString (c :: read) (column + 2) rest
    | none => .error ⟨.invalidEscape, column + 2⟩
  | c :: rest =>
    if c.toNat < 0x20 then .error ⟨.controlCharacter, column + 1⟩
    else readString (c :: read) (column + c.utf8Size) rest

end ByteMachine.Json
