import ByteMachine.CommandLine.Arguments
import ByteMachine.Session.Basic

/-!
# Pages of help

One page on the whole program, and one on each verb. The pages show what the environment holds.
-/
namespace ByteMachine.CommandLine

def joinLines (lines : List String) : String := String.join (lines.map (· ++ "\n"))

def versionLine : String := "batpu 0.1.0\n"

def Verb.summary : Verb → String
  | run => "Run a program to completion and print the final state"
  | serve => "Answer JSON requests on stdin, one per line"
  | panel => "Interactive terminal debugger"
  | listing => "Print the disassembly listing of a program"
  | help => "Print this message or the help of the given subcommand(s)"

/-- The row of a verb in the page on the program, with its name in a column of eight. -/
def Verb.row (verb : Verb) : String :=
  s!"  {verb.name}" ++ String.ofList (List.replicate (8 - verb.name.length) ' ') ++ verb.summary

def usage : Option Verb → String
  | none => "Usage: batpu [OPTIONS] <COMMAND>"
  | some .help => "Usage: batpu help [COMMAND]..."
  | some .serve => "Usage: batpu serve [OPTIONS]"
  | some verb => s!"Usage: batpu {verb.name} [OPTIONS] <FILE>"

/-- The rows of the options that stand before the verb or after it. -/
def optionRows (env : Environment) : List String :=
  let limit := String.ofList (env.runLimit.getD [])
  let seed := String.ofList (env.seed.getD [])
  ["      --max <MAX>    Default instruction limit for a run" ++
      s!" [env: BATPU_MAX={limit}] [default: {defaultRunLimit}]",
    s!"      --seed <SEED>  Fixed RNG seed, for reproducible runs [env: BATPU_SEED={seed}]",
    "  -h, --help         Print help"]

/-- What a verb takes besides options. -/
def Verb.argumentRows : Verb → List String
  | run | panel | listing => ["", "Arguments:", "  <FILE>  "]
  | serve => []
  | help => ["", "Arguments:", "  [COMMAND]...  Print help for the subcommand(s)"]

def helpText (env : Environment) : Option Verb → String
  | none => joinLines (
      ["BatPU-2 assembler, emulator and debugger", "", usage none, "", "Commands:"] ++
      Verb.all.map Verb.row ++ ["", "Options:"] ++ optionRows env ++
      ["  -V, --version      Print version"])
  | some .help => joinLines ([Verb.help.summary, "", usage (some .help)] ++ Verb.help.argumentRows)
  | some verb => joinLines ([verb.summary, "", usage (some verb)] ++ verb.argumentRows ++
      ["", "Options:"] ++ optionRows env)

/-- What is said about arguments that are refused. -/
def refusal : String := joinLines [usage none, "", "For more information, try '--help'."]

end ByteMachine.CommandLine
