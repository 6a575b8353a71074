import ByteMachine.CommandLine.Help
import ByteMachine.Service.Basic

/-!
# Commands

What each command does, as a function of the contents of the file that it names. A file is read
before its name is looked at; the end of the name decides how it is loaded.
-/
namespace ByteMachine.CommandLine

inductive FileError where
  | notFound
  | denied
  | notDirectory
  | isDirectory
  | notText
  | other (message : String)
  deriving DecidableEq, Repr

def FileError.message : FileError → String
  | notFound => "No such file or directory (os error 2)"
  | denied => "Permission denied (os error 13)"
  | notDirectory => "Not a directory (os error 20)"
  | isDirectory => "Is a directory (os error 21)"
  | notText => "stream did not contain valid UTF-8"
  | other message => message

inductive LoadError where
  | file (error : FileError)
  | fileType (path : Text)
  | program (message : String)
  deriving DecidableEq, Repr

def LoadError.message : LoadError → String
  | file error => s!"I/O error: {error.message}"
  | fileType path => s!"unsupported file type: {String.ofList path} (expected .as or .mc)"
  | program message => message

/-- The last part of a path that is a name. -/
def fileName (path : Text) : Text :=
  (((path.splitOn '/').filter fun part => !part.isEmpty && part != ['.']).getLast?).getD []

/-- What follows the last point of the file name. The name of a file may start with a point that
begins no extension. -/
def extension (path : Text) : Text :=
  let reversed := (fileName path).reverse
  match reversed.dropWhile (· != '.') with
  | _ :: _ :: _ => (reversed.takeWhile (· != '.')).reverse
  | _ => []

def loadFile (s : Session) (path : Text) (content : Except FileError (List UInt8)) :
    Except LoadError Session := do
  let bytes ← content.mapError .file
  let some text := decodeText? bytes | throw (.file .notText)
  let ending := extension path
  let (s, reply) ←
    if ending = "mc".toList then pure (s.loadImage text)
    else if ending = "as".toList ∨ ending = "asm".toList then pure (s.load text)
    else throw (.fileType path)
  if reply.success then return s else throw (.program reply.message)

/-- How a program that has run looks from outside. -/
structure Outcome where
  exitCode : Nat
  stdout : String
  stderr : String
  deriving DecidableEq, Repr

def failed (message : String) : Outcome := ⟨1, "", s!"error: {message}\n"⟩

def screenText (rows : List (List Bool)) : List String :=
  let border := "+" ++ String.ofList (List.replicate screenSide '-') ++ "+"
  let line (row : List Bool) : String :=
    "|" ++ String.ofList (row.map fun lit => if lit then '█' else ' ') ++ "|"
  [border] ++ rows.map line ++ [border]

/-- The lines that describe the state after a run. -/
def report (s : Snapshot) : List String :=
  let verdict := match s.fault, s.stopReason with
    | some fault, _ => s!"fault: {fault}"
    | none, some .limit => s!"stopped after {s.instructions} instructions (limit)"
    | none, _ => s!"halted after {s.instructions} instructions"
  [verdict, s!"pc = {s.pc.toNat}"] ++ s.outputs ++
    [s!"flags: zero={s.flags.zero.toNat} carry={s.flags.carry.toNat}"] ++
    (s.numberDisplay.map fun n => s!"number: {n}").toList ++
    (if s.charBuffer.isEmpty then [] else [s!"chars: {s.charBuffer}"]) ++
    (if s.screen.any (·.any id) then screenText s.screen else [])

def listingLine (row : ListingRow) : String :=
  let address := String.ofList (Text.padLeft 4 ' ' (Text.decimal row.address))
  s!"{address}  {String.ofList row.bits}  {String.ofList row.text}"

/-- What is left to do once the file has been loaded. -/
inductive Effect where
  | finished (outcome : Outcome)
  | serve (session : Session)
  | panel (session : Session) (title : Text)

def Invocation.config (i : Invocation) : Config :=
  let start : Config := { seed := i.seed.map UInt64.ofNat }
  { start with runLimit := i.runLimit.getD start.runLimit }

/-- Performs a command on the contents of files. -/
def Invocation.perform (i : Invocation) (entropy : Entropy)
    (content : Except FileError (List UInt8)) : Effect :=
  let s := Session.new i.config entropy
  let withFile (file : Text) (f : Session → Effect) : Effect :=
    match loadFile s file content with
    | .ok s => f s
    | .error e => .finished (failed e.message)
  match i.command with
  | .serve => .serve s
  | .run file => withFile file fun s =>
    let snapshot := (s.run none).snapshot
    .finished ⟨if snapshot.fault.isSome then 1 else 0, joinLines (report snapshot), ""⟩
  | .listing file => withFile file fun s =>
    .finished ⟨0, joinLines (s.listing.map listingLine), ""⟩
  | .panel file => withFile file fun s => .panel s file

def Command.file? : Command → Option Text
  | run file | panel file | listing file => some file
  | serve => none

/-- The session after an input that the service has read, and what it has printed. -/
def serveOutcome (s : Session) (input : List UInt8) : Session × Outcome :=
  let service := s.serve Request.read input
  let stdout := String.join (service.replies.map Reply.line)
  (service.session,
    if service.completed then ⟨0, stdout, ""⟩ else ⟨1, stdout, s!"error: {invalidTextMessage}\n"⟩)

end ByteMachine.CommandLine
