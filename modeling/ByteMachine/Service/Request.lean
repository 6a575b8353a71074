import ByteMachine.Json.Reader
import ByteMachine.Session.Basic

/-!
# Requests

A request line is a JSON object with the name of a command and its field, or an array of the two.
The name is checked as soon as it is read, so what is wrong with it is reported with a column; what
is wrong with a field is reported without one, and before anything that follows the request on its
line.
-/
namespace ByteMachine

inductive Command where
  | load
  | loadImage
  | step
  | run
  | reset
  | state
  | listing
  | breakpoint
  | input
  deriving DecidableEq, Repr

namespace Command

def all : List Command := [load, loadImage, step, run, reset, state, listing, breakpoint, input]

def name : Command → String
  | load => "load"
  | loadImage => "load_machine_code"
  | step => "step"
  | run => "run"
  | reset => "reset"
  | state => "state"
  | listing => "disasm"
  | breakpoint => "breakpoint"
  | input => "input"

def ofName? (name : Text) : Option Command := all.find? fun c => c.name.toList == name

end Command

inductive RequestCause where
  | malformed (error : Json.SyntaxError)
  | wrongType (found : Json.Value) (expected : String)
  | outOfRange (n : Int) (expected : String)
  | wrongLength (length : Nat) (expected : String)
  | unknownCommand (name : Text)
  | missingField (name : String)
  | duplicateField (name : String)

def RequestCause.message : RequestCause → String
  | malformed e => e.message
  | wrongType found expected => s!"invalid type: {found.kind}, expected {expected}"
  | outOfRange n expected => s!"invalid value: integer `{n}`, expected {expected}"
  | wrongLength length expected => s!"invalid length {length}, expected {expected}"
  | unknownCommand name =>
    let known := ", ".intercalate (Command.all.map fun c => s!"`{c.name}`")
    s!"unknown variant `{String.ofList name}`, expected one of {known}"
  | missingField name => s!"missing field `{name}`"
  | duplicateField name => s!"duplicate field `{name}`"

structure RequestError where
  cause : RequestCause
  column : Option Nat

def RequestError.message (e : RequestError) : String :=
  match e.column with
  | some column => s!"{e.cause.message} at line 1 column {column}"
  | none => e.cause.message

def RequestError.ofFailure (f : Json.Failure) : RequestError := ⟨.malformed f.error, some f.column⟩

/-- What comes with the name of a command: the other fields of its object, or the other elements of
its array. -/
inductive Content where
  | fields (fields : List (Text × Json.Value))
  | items (items : List Json.Value)

namespace Request

open Json (Cursor Value Failure readValue readItems)

def commandField : String := "cmd"

def lift {α : Type} (r : Except Failure α) : Except RequestError α :=
  r.mapError RequestError.ofFailure

def refuse {α : Type} (cause : RequestCause) (c : Cursor) : Except RequestError α :=
  .error ⟨cause, some c.column⟩

/-- Reads the name of a command. -/
def readCommand (c : Cursor) : Except RequestError (Command × Cursor) := do
  let c := c.skipSpace
  match c.scalar? with
  | some result =>
    let (value, c) ← lift result
    match value with
    | .string name =>
      match Command.ofName? name with
      | some command => return (command, c)
      | none => refuse (.unknownCommand name) c
    | other => refuse (.wrongType other "variant identifier") c
  | none =>
    match c.rest with
    | [] => lift (c.fail .eofValue)
    | '[' :: _ => refuse (.wrongType (.array []) "variant identifier") c
    | '\x7b' :: _ => refuse (.wrongType (.object []) "variant identifier") c
    | _ => lift (c.failPeek .expectedValue)

/-- Reads the fields of the outermost object, the command among them, through the closing brace. The
fields read before stand in `fields`, the latest first. -/
def readTagged : (fuel : Nat) → (first : Bool) → Option Command → List (Text × Value) → Cursor →
    Except RequestError (Command × Content × Cursor)
  | 0, _, _, _, c => lift (c.fail .eofObject)
  | fuel + 1, first, command, fields, c => do
    let (more, c) ← lift (c.nextKey first)
    if !more then
      match command with
      | some command => return (command, .fields fields.reverse, c)
      | none => refuse (.missingField commandField) c
    else
      let (key, c) ← lift c.string
      if key = commandField.toList then
        if command.isSome then
          let c := c.skipSpace
          refuse (.duplicateField commandField) (if c.rest.head? = some '\x7d' then c.drop 1 else c)
        else
          let c ← lift c.colon
          let (command, c) ← readCommand c
          readTagged fuel false (some command) fields c
      else
        let c ← lift c.colon
        let (value, c) ← lift (readValue fuel (Json.depthLimit - 1) c)
        readTagged fuel false command ((key, value) :: fields) c

/-- Reads the command and its content from the start of a line. -/
def readParts (line : Text) : Except RequestError (Command × Content × Cursor) := do
  let fuel := 2 * line.length + 2
  let c := (Cursor.start line).skipSpace
  match c.scalar? with
  | some result =>
    let (value, c) ← lift result
    refuse (.wrongType value "internally tagged enum Request") c
  | none =>
    match c.rest with
    | [] => lift (c.fail .eofValue)
    | '\x7b' :: _ => readTagged fuel true none [] (c.drop 1)
    | '[' :: _ =>
      let (more, c) ← lift ((c.drop 1).nextItem true)
      if more then
        let (command, c) ← readCommand c
        let (items, c) ← lift (readItems fuel (Json.depthLimit - 1) false c)
        return (command, .items items, c)
      else refuse (.missingField commandField) c
    | _ => lift (c.failPeek .expectedValue)

/-! ## Fields -/

/-- The first number that has no place in 64 bits. -/
def wordBound : Nat := 0x10000000000000000

def natBelow (bound : Nat) (expected : String) : Value → Except RequestCause Nat
  | .integer n =>
    if 0 ≤ n ∧ n < bound then .ok n.toNat else .error (.outOfRange n expected)
  | other => .error (.wrongType other expected)

def text : Value → Except RequestCause Text
  | .string s => .ok s
  | other => .error (.wrongType other "a string")

def optional {α : Type} (read : Value → Except RequestCause α) :
    Value → Except RequestCause (Option α)
  | .null => .ok none
  | other => (read other).map some

/-- The value of a field, which may be given once. -/
def findField {α : Type} (name : String) (read : Value → Except RequestCause α) :
    Option α → List (Text × Value) → Except RequestCause (Option α)
  | found, [] => .ok found
  | found, (key, value) :: rest =>
    if key = name.toList then
      match found with
      | some _ => .error (.duplicateField name)
      | none => do findField name read (some (← read value)) rest
    else findField name read found rest

/-- The only field of a command. What a missing field stands for, and how the command is called in a
message, depends on the command. -/
def field {α : Type} (name : String) (read : Value → Except RequestCause α)
    (missing : RequestCause → Except RequestCause α) (variant : String) :
    Content → Except RequestCause α
  | .fields fields => do
    match ← findField name read none fields with
    | some value => return value
    | none => missing (.missingField name)
  | .items [] => missing (.wrongLength 0 s!"struct variant Request::{variant} with 1 element")
  | .items (value :: rest) => do
    let value ← read value
    if rest.isEmpty then return value
    else throw (.wrongLength (rest.length + 1) "1 element in sequence")

/-- A command without a field takes any object, but no element of an array. -/
def noField : Content → Except RequestCause Unit
  | .fields _ => .ok ()
  | .items items =>
    if items.isEmpty then .ok () else .error (.wrongLength items.length "0 elements in sequence")

def operation (content : Content) : Command → Except RequestCause Operation
  | .load => do return .load (← field "code" text .error "Load" content)
  | .loadImage => do return .loadImage (← field "code" text .error "LoadMachineCode" content)
  | .step => do noField content; return .step
  | .run => do
    let limit := optional (natBelow wordBound "u64")
    return .run (← field "max" limit (fun _ => .ok none) "Run" content)
  | .reset => do noField content; return .reset
  | .state => do noField content; return .state
  | .listing => do noField content; return .listing
  | .breakpoint => do
    return .breakpoint (← field "addr" (natBelow wordBound "usize") .error "Breakpoint" content)
  | .input => do
    return .input (UInt8.ofNat (← field "value" (natBelow 0x100 "u8") .error "Input" content))

/-- The operation that a line asks for. -/
def ofLine (line : Text) : Except RequestError Operation := do
  let (command, content, c) ← readParts line
  let op ← (operation content command).mapError fun cause => ⟨cause, none⟩
  let c := c.skipSpace
  if c.rest.isEmpty then return op else lift (c.failPeek .trailingCharacters)

end Request
end ByteMachine
