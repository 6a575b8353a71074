import ByteMachine.Decimal.Shortest
import ByteMachine.Text.Quoted

/-!
# JSON values

A value, its compact text, and the words by which a message names what kind of value it met. Fields
of an object stand in the order in which they were given.
-/
namespace ByteMachine.Json

inductive Value where
  | null
  | bool (b : Bool)
  | integer (n : Int)
  | float (x : Binary64)
  | string (s : Text)
  | array (items : List Value)
  | object (fields : List (Text × Value))

def escapeChar (c : Char) : Text :=
  match c with
  | '"' => ['\\', '"']
  | '\\' => ['\\', '\\']
  | '\x08' => ['\\', 'b']
  | '\x0c' => ['\\', 'f']
  | '\n' => ['\\', 'n']
  | '\r' => ['\\', 'r']
  | '\t' => ['\\', 't']
  | c => if c.toNat < 0x20 then ['\\', 'u'] ++ Text.hex 4 c.toNat else [c]

def quote (s : Text) : Text := ['"'] ++ s.flatMap escapeChar ++ ['"']

namespace Value

mutual

/-- The text of a value without blanks. -/
def compact : Value → Text
  | null => "null".toList
  | bool true => "true".toList
  | bool false => "false".toList
  | integer n => Text.signed n
  | float x => x.text
  | string s => quote s
  | array items => ['['] ++ [','].intercalate (compactItems items) ++ [']']
  | object fields => ['\x7b'] ++ [','].intercalate (compactFields fields) ++ ['\x7d']

def compactItems : List Value → List Text
  | [] => []
  | v :: rest => v.compact :: compactItems rest

def compactFields : List (Text × Value) → List Text
  | [] => []
  | (key, v) :: rest => (quote key ++ [':'] ++ v.compact) :: compactFields rest

end

/-- What a message calls a value. -/
def kind : Value → String
  | null => "null"
  | bool b => s!"boolean `{b}`"
  | integer n => s!"integer `{n}`"
  | float x => s!"floating point `{String.ofList x.text}`"
  | string s => s!"string {String.ofList s.quoted}"
  | array _ => "sequence"
  | object _ => "map"

def ofString (s : String) : Value := string s.toList

def ofNat (n : Nat) : Value := integer n

def ofOption {α : Type} (f : α → Value) : Option α → Value
  | none => null
  | some a => f a

/-- An object whose keys are plain names. -/
def record (fields : List (String × Value)) : Value :=
  object (fields.map fun (key, v) => (key.toList, v))

end Value
end ByteMachine.Json
