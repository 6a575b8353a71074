import ByteMachine.CommandLine.Basic
import ByteMachine.Panel.Frame

/-!
# The program

Reads arguments, environment, files and standard input, and prints what the commands answer.
-/
namespace ByteMachine.Program

open CommandLine (Environment FileError Outcome)

def readEnvironment : IO Environment := do
  return ⟨(← IO.getEnv "BATPU_MAX").map String.toList, (← IO.getEnv "BATPU_SEED").map String.toList⟩

/-- What was wrong with a file; 21 is the code of a directory where a file is needed. -/
def fileError : IO.Error → FileError
  | .noFileOrDirectory .. => .notFound
  | .inappropriateType _ 21 _ => .isDirectory
  | .inappropriateType .. => .notDirectory
  | .permissionDenied .. => .denied
  | e => .other (toString e)

def readFile (path : Text) : IO (Except FileError (List UInt8)) := do
  match ← (IO.FS.readBinFile (String.ofList path)).toBaseIO with
  | .ok bytes => return .ok bytes.toList
  | .error e => return .error (fileError e)

/-- The keys of all restarts, stretched from one that the operating system gives. -/
def entropy : IO Entropy := do
  let bytes := (← IO.getRandomBytes 32).toList
  return .ofKey (Vector.ofFn fun i =>
    ((bytes.drop (4 * i)).take 4).foldl (fun word b => word * 256 + b.toUInt32) 0)

def finish (o : Outcome) : IO UInt32 := do
  IO.print o.stdout
  IO.eprint o.stderr
  return UInt32.ofNat o.exitCode

/-- The bytes of the next line, its end included, after those read before, the latest first. -/
partial def nextLine (input : IO.FS.Stream) (before : List UInt8) : IO (List UInt8) := do
  match (← input.read 1).toList with
  | [] => return before.reverse
  | 0x0A :: _ => return (0x0A :: before).reverse
  | b :: _ => nextLine input (b :: before)

/-- Serves the input line by line, until its end or until a line that is no text. -/
partial def serve (input output : IO.FS.Stream) (s : Session) : IO UInt32 := do
  match ← nextLine input [] with
  | [] => return 0
  | line =>
    let (s, outcome) := CommandLine.serveOutcome s line
    let exitCode ← finish outcome
    output.flush
    if exitCode = 0 then serve input output s else return exitCode

def keyOf (word : String) : Key :=
  match word, word.toList with
  | _, [c] => .char c
  | "up", _ => .up
  | "down", _ => .down
  | "pageup", _ => .pageUp
  | "pagedown", _ => .pageDown
  | "home", _ => .home
  | "end", _ => .last
  | "esc", _ => .escape
  | _, _ => .other

/-- Shows the panel, reads keys as words of a line, and lets the clock tick once after each line. -/
partial def panel (input output : IO.FS.Stream) (p : Panel) : IO UInt32 := do
  if p.quit then return 0
  for row in p.frame 120 40 do
    output.putStrLn (String.ofList row.text)
  output.flush
  match decodeText? (← nextLine input []) with
  | none | some [] => return 0
  | some line =>
    let keys := (Text.words isBlank line).map fun word => keyOf (String.ofList word)
    let p := keys.foldl (fun p key => p.handleKey { key }) p
    panel input output (p.tick true)

def perform (i : CommandLine.Invocation) : IO UInt32 := do
  let content ← match i.command.file? with
    | some file => readFile file
    | none => pure (.ok [])
  match i.perform (← entropy) content with
  | .finished o => finish o
  | .serve s => serve (← IO.getStdin) (← IO.getStdout) s
  | .panel s title => panel (← IO.getStdin) (← IO.getStdout) (Panel.new s title)

end ByteMachine.Program

open ByteMachine in
def main (args : List String) : IO UInt32 := do
  let env ← Program.readEnvironment
  match CommandLine.read env (args.map String.toList) with
  | .invoke i => Program.perform i
  | .version => Program.finish ⟨0, CommandLine.versionLine, ""⟩
  | .help topic => Program.finish ⟨0, CommandLine.helpText env topic, ""⟩
  | .refused => Program.finish ⟨2, "", CommandLine.refusal⟩
