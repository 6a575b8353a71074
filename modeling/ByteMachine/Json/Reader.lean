import ByteMachine.Json.Number
import ByteMachine.Json.Quoted

/-!
# Reading JSON

Values are read from left to right, and the first thing wrong ends the reading. Arrays and objects
may be nested to a fixed depth only.
-/
namespace ByteMachine.Json

namespace Cursor

/-- Goes to the next element of an array: to its first character, or past the closing bracket. -/
def nextItem (c : Cursor) (first : Bool) : Except Failure (Bool × Cursor) :=
  let c := c.skipSpace
  match c.rest with
  | [] => c.fail .eofList
  | ']' :: _ => .ok (false, c.drop 1)
  | ',' :: _ =>
    if first then .ok (true, c)
    else
      let c := (c.drop 1).skipSpace
      match c.rest with
      | [] => c.fail .eofValue
      | ']' :: _ => c.failPeek .trailingComma
      | _ => .ok (true, c)
  | _ => if first then .ok (true, c) else c.failPeek .expectedCommaOrBracket

/-- Goes to the quote of the next key of an object, or past the closing brace. -/
def nextKey (c : Cursor) (first : Bool) : Except Failure (Bool × Cursor) :=
  let c := c.skipSpace
  match c.rest with
  | [] => c.fail .eofObject
  | '\x7d' :: _ => .ok (false, c.drop 1)
  | '"' :: _ => if first then .ok (true, c) else c.failPeek .expectedCommaOrBrace
  | ',' :: _ =>
    if first then c.failPeek .keyNotString
    else
      let c := (c.drop 1).skipSpace
      match c.rest with
      | [] => c.fail .eofValue
      | '"' :: _ => .ok (true, c)
      | '\x7d' :: _ => c.failPeek .trailingComma
      | _ => c.failPeek .keyNotString
  | _ => c.failPeek (if first then .keyNotString else .expectedCommaOrBrace)

/-- Reads the string whose opening quote is the next character. -/
def string (c : Cursor) : Except Failure (Text × Cursor) :=
  readString [] (c.column + 1) (c.rest.drop 1)

def colon (c : Cursor) : Except Failure Cursor :=
  let c := c.skipSpace
  match c.rest with
  | [] => c.fail .eofObject
  | ':' :: _ => .ok (c.drop 1)
  | _ => c.failPeek .expectedColon

/-- Reads a value that is neither an array nor an object, if its first character starts one. -/
def scalar? (c : Cursor) : Option (Except Failure (Value × Cursor)) :=
  match c.rest with
  | 'n' :: _ => some ((readLetters "ull".toList (c.drop 1)).map fun c => (.null, c))
  | 't' :: _ => some ((readLetters "rue".toList (c.drop 1)).map fun c => (.bool true, c))
  | 'f' :: _ => some ((readLetters "alse".toList (c.drop 1)).map fun c => (.bool false, c))
  | '"' :: _ => some (c.string.map fun (s, c) => (.string s, c))
  | d :: _ => if d = '-' ∨ d.isDigit then some (readNumber c) else none
  | [] => none

end Cursor

/-- Arrays and objects that may be open around a value, and one more. -/
def depthLimit : Nat := 128

mutual

/-- Reads a value. Between two steps at least one character is taken, so a fuel above twice the
length of the text suffices. -/
def readValue : (fuel depth : Nat) → Cursor → Except Failure (Value × Cursor)
  | 0, _, c => c.fail .eofValue
  | fuel + 1, depth, c =>
    let c := c.skipSpace
    match c.scalar? with
    | some result => result
    | none =>
      match c.rest with
      | [] => c.fail .eofValue
      | '[' :: _ =>
        if depth ≤ 1 then c.failPeek .recursionLimit
        else do
          let (items, c) ← readItems fuel (depth - 1) true (c.drop 1)
          return (.array items, c)
      | '\x7b' :: _ =>
        if depth ≤ 1 then c.failPeek .recursionLimit
        else do
          let (fields, c) ← readFields fuel (depth - 1) true (c.drop 1)
          return (.object fields, c)
      | _ => c.failPeek .expectedValue

/-- Reads elements of an array through its closing bracket. -/
def readItems : (fuel depth : Nat) → (first : Bool) → Cursor → Except Failure (List Value × Cursor)
  | 0, _, _, c => c.fail .eofList
  | fuel + 1, depth, first, c => do
    let (more, c) ← c.nextItem first
    if more then
      let (item, c) ← readValue fuel depth c
      let (items, c) ← readItems fuel depth false c
      return (item :: items, c)
    else return ([], c)

/-- Reads fields of an object through its closing brace. -/
def readFields : (fuel depth : Nat) → (first : Bool) → Cursor →
    Except Failure (List (Text × Value) × Cursor)
  | 0, _, _, c => c.fail .eofObject
  | fuel + 1, depth, first, c => do
    let (more, c) ← c.nextKey first
    if more then
      let (key, c) ← c.string
      let c ← c.colon
      let (value, c) ← readValue fuel depth c
      let (fields, c) ← readFields fuel depth false c
      return ((key, value) :: fields, c)
    else return ([], c)

end

end ByteMachine.Json
