import ByteMachine.Decimal.Binary64
import ByteMachine.Json.Cursor
import ByteMachine.Json.Value

/-!
# Numbers in JSON

A number without fraction and exponent is an integer if it fits 64 bits, and a floating point number
otherwise, as is a negative zero. A significand takes as many digits as fit 64 bits; the digits
after those only count for the power of ten, or not at all if they stand after the point.
-/
namespace ByteMachine.Json

/-- The number that one more digit would have to keep below. -/
def significandBound : Nat := 0x10000000000000000

def digitValue (c : Char) : Nat := c.toNat - '0'.toNat

/-- Takes digits while the significand stays in its bound, and gives back the digits left over. -/
def significand : Nat → Text → Nat × Text
  | n, [] => (n, [])
  | n, d :: rest =>
    if n * 10 + digitValue d < significandBound then significand (n * 10 + digitValue d) rest
    else (n, d :: rest)

/-- Digits after which an exponent has grown beyond 31 bits, and the exponent before them. -/
def exponentOverflow? : (taken n : Nat) → Text → Option Nat
  | _, _, [] => none
  | taken, n, d :: rest =>
    if n * 10 + digitValue d < 0x80000000 then
      exponentOverflow? (taken + 1) (n * 10 + digitValue d) rest
    else some (taken + 1)

def digitsOf (c : Cursor) : Text := c.rest.takeWhile Char.isDigit

def floatOf (c : Cursor) (negative : Bool) (significand : Nat) (exponent : Int) :
    Except Failure (Value × Cursor) :=
  match Magnitude.scaleByTen? significand exponent with
  | some magnitude => .ok (.float ⟨negative, magnitude⟩, c)
  | none => c.fail .numberOutOfRange

/-- Reads an exponent, from the character after its letter. -/
def readExponent (c : Cursor) (negative : Bool) (significand : Nat) (exponent : Int) :
    Except Failure (Value × Cursor) :=
  let (down, c) := match c.rest with
    | '+' :: _ => (false, c.drop 1)
    | '-' :: _ => (true, c.drop 1)
    | _ => (false, c)
  let digits := digitsOf c
  if digits.isEmpty then
    if c.rest.isEmpty then c.fail .eofValue else (c.drop 1).fail .invalidNumber
  else
    let last := c.drop digits.length
    match exponentOverflow? 0 0 digits with
    | some taken =>
      if significand ≠ 0 ∧ !down then (c.drop taken).fail .numberOutOfRange
      else .ok (.float ⟨negative, .zero⟩, last)
    | none =>
      let shift : Int := digits.foldl (fun n d => n * 10 + digitValue d) 0
      floatOf last negative significand (if down then exponent - shift else exponent + shift)

/-- Reads an exponent if there is one. -/
def readScale (c : Cursor) (negative : Bool) (significand : Nat) (exponent : Int) :
    Except Failure (Value × Cursor) :=
  match c.rest with
  | 'e' :: _ | 'E' :: _ => readExponent (c.drop 1) negative significand exponent
  | _ => floatOf c negative significand exponent

/-- Reads a fraction, from the character after the point. -/
def readFraction (c : Cursor) (negative : Bool) (whole : Nat) (exponent : Int) :
    Except Failure (Value × Cursor) :=
  let digits := digitsOf c
  if digits.isEmpty then
    c.failPeek (if c.rest.isEmpty then .eofValue else .invalidNumber)
  else
    let (n, dropped) := significand whole digits
    let taken := digits.length - dropped.length
    readScale (c.drop digits.length) negative n (exponent - taken)

def integerOf (negative : Bool) (n : Nat) : Value :=
  if !negative then .integer n
  else if n = 0 ∨ 0x8000000000000000 < n then
    .float ⟨true, (Magnitude.scaleByTen? n 0).getD .zero⟩
  else .integer (-n)

/-- Reads a number after its sign. -/
def readUnsigned (c : Cursor) (negative : Bool) : Except Failure (Value × Cursor) :=
  let digits := digitsOf c
  match digits with
  | [] => if c.rest.isEmpty then c.fail .eofValue else (c.drop 1).fail .invalidNumber
  | '0' :: _ :: _ => (c.drop 1).failPeek .invalidNumber
  | _ =>
    let (n, dropped) := significand 0 digits
    let last := c.drop digits.length
    match last.rest with
    | '.' :: _ => readFraction (last.drop 1) negative n dropped.length
    | 'e' :: _ | 'E' :: _ => readExponent (last.drop 1) negative n dropped.length
    | _ =>
      if dropped.isEmpty then .ok (integerOf negative n, last)
      else floatOf last negative n dropped.length

def readNumber (c : Cursor) : Except Failure (Value × Cursor) :=
  match c.rest with
  | '-' :: _ => readUnsigned (c.drop 1) true
  | _ => readUnsigned c false

end ByteMachine.Json
