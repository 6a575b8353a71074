import ByteMachine.Text.Numeral

/-!
# Command line arguments

The arguments name a command, with a file for most commands. The run limit and the seed may be set
before the command or after it, once in each place, and in the environment: what stands after the
command counts first, then what stands before it, then the environment. A value that is no 64-bit
number is refused wherever it stands, except that the environment is not looked at for an option set
in both places.

After the word `help` only the names of commands are read, whatever else an argument could mean in
another place.
-/
namespace ByteMachine.CommandLine

/-- What the first word names: a command, or the pages of help. -/
inductive Verb where
  | run
  | serve
  | panel
  | listing
  | help
  deriving DecidableEq, Repr

namespace Verb

def all : List Verb := [run, serve, panel, listing, help]

def name : Verb → String
  | run => "run"
  | serve => "serve"
  | panel => "tui"
  | listing => "disasm"
  | help => "help"

def named? (word : Text) : Option Verb := all.find? fun verb => verb.name.toList == word

end Verb

inductive Command where
  | run (file : Text)
  | serve
  | panel (file : Text)
  | listing (file : Text)
  deriving DecidableEq, Repr

structure Invocation where
  runLimit : Option Nat
  seed : Option Nat
  command : Command
  deriving DecidableEq, Repr

/-- What the arguments ask for. -/
inductive Demand where
  | invoke (invocation : Invocation)
  | version
  /-- The page on a verb, or on the whole program. -/
  | help (topic : Option Verb)
  | refused
  deriving DecidableEq, Repr

structure Environment where
  runLimit : Option Text := none
  seed : Option Text := none
  deriving DecidableEq, Repr

/-- A number of 64 bits, with an optional plus sign. -/
def readNumber? (s : Text) : Option Nat :=
  let digits := match s with
    | '+' :: rest => rest
    | all => all
  (Text.read? 10 digits).filter (· < 0x10000000000000000)

/-- The options set in one place. -/
structure Options where
  runLimit : Option Nat := none
  seed : Option Nat := none
  deriving DecidableEq, Repr

namespace Options

/-- Sets an option, by its name and the text of its value. -/
def set? (o : Options) (name value : Text) : Option Options := do
  let n ← readNumber? value
  if name = "max".toList ∧ o.runLimit.isNone then return { o with runLimit := n }
  else if name = "seed".toList ∧ o.seed.isNone then return { o with seed := n }
  else none

/-- An option that is set, or else its value in the environment, which must be a number then. -/
def complete? (own : Option Nat) (outer : Option Text) : Option (Option Nat) :=
  match own, outer with
  | some n, _ => some (some n)
  | none, some value => (readNumber? value).map some
  | none, none => some none

end Options

/-- What one argument is, or an option together with its value. -/
inductive Item where
  | option (name value : Text)
  | version
  | help
  /-- A word, and the arguments after it as they are. -/
  | word (text : Text) (rest : List Text)
  /-- A word after two dashes, which end the options. -/
  | plainWord (text : Text)
  | refused
  deriving DecidableEq, Repr

/-- The name of a long option, and the value after an equals sign. -/
def splitOption (body : Text) : Text × Option Text :=
  match body.dropWhile (· != '=') with
  | [] => (body, none)
  | _ :: value => (body.takeWhile (· != '='), some value)

def isOptionName (name : Text) : Bool := name == "max".toList || name == "seed".toList

def items : List Text → List Item
  | [] => []
  | ['-', '-'] :: rest => rest.map .plainWord
  | ('-' :: '-' :: body) :: rest =>
    match splitOption body with
    | (name, some value) =>
      (if isOptionName name then .option name value else .refused) :: items rest
    | (name, none) =>
      if isOptionName name then
        match rest with
        | value :: rest => .option name value :: items rest
        | [] => [.refused]
      else if name = "version".toList then .version :: items rest
      else if name = "help".toList then .help :: items rest
      else .refused :: items rest
  | ('-' :: 'V' :: _) :: rest => .version :: items rest
  | ('-' :: 'h' :: _) :: rest => .help :: items rest
  | ('-' :: _ :: _) :: rest => .refused :: items rest
  | word :: rest => .word word rest :: items rest

/-- What the arguments after the command come to. -/
inductive Reading where
  | done (options : Options) (words : List Text)
  | help
  | refused
  deriving DecidableEq, Repr

/-- Reads the arguments after the command, which takes at most one word. The word is the name of a
file and not empty. -/
def readAfter (takesWord : Bool) (options : Options) (words : List Text) : List Item → Reading
  | [] => .done options words
  | .option name value :: rest =>
    match options.set? name value with
    | some options => readAfter takesWord options words rest
    | none => .refused
  | .word word _ :: rest | .plainWord word :: rest =>
    if !takesWord || !words.isEmpty || word.isEmpty then .refused
    else readAfter takesWord options [word] rest
  | .help :: _ => .help
  | .version :: _ | .refused :: _ => .refused

/-- An option from the two places where it can be set and from the environment, which must hold a
number unless the option is set in both places. -/
def settle (before after : Option Nat) (outer : Option Text) : Option (Option Nat) := do
  let early ← Options.complete? before outer
  let late ← Options.complete? after outer
  return if after.isSome then late else early

/-- The demand of a command whose arguments have been read. -/
def finish (env : Environment) (before after : Options) (command : Command) : Demand :=
  match settle before.runLimit after.runLimit env.runLimit with
  | none => .refused
  | some runLimit =>
    match settle before.seed after.seed env.seed with
    | none => .refused
    | some seed => .invoke { runLimit, seed, command }

/-- The page of help that the arguments after the word `help` name. No verb has verbs of its own. -/
def readTopic : List Text → Demand
  | [] => .help none
  | [word] =>
    match Verb.named? word with
    | some verb => .help (some verb)
    | none => .refused
  | _ => .refused

/-- Reads the arguments after a command that needs a file. -/
def readFileCommand (env : Environment) (before : Options) (verb : Verb) (command : Text → Command)
    (rest : List Text) : Demand :=
  match readAfter true {} [] (items rest) with
  | .done after [file] => finish env before after (command file)
  | .help => .help (some verb)
  | .done _ _ | .refused => .refused

/-- Reads the arguments after a verb. -/
def readVerb (env : Environment) (before : Options) (verb : Verb) (rest : List Text) : Demand :=
  match verb with
  | .run => readFileCommand env before verb .run rest
  | .panel => readFileCommand env before verb .panel rest
  | .listing => readFileCommand env before verb .listing rest
  | .serve =>
    match readAfter false {} [] (items rest) with
    | .done after _ => finish env before after .serve
    | .help => .help (some verb)
    | .refused => .refused
  | .help => readTopic rest

/-- Reads the arguments before the verb, whose options are set so far, and all after them. -/
def readBefore (env : Environment) (before : Options) : List Item → Demand
  | [] | .plainWord _ :: _ | .refused :: _ => .refused
  | .option name value :: rest =>
    match before.set? name value with
    | some before => readBefore env before rest
    | none => .refused
  | .word word rest :: _ =>
    match Verb.named? word with
    | some verb => readVerb env before verb rest
    | none => .refused
  | .version :: _ => .version
  | .help :: _ => .help none

def read (env : Environment) (args : List Text) : Demand := readBefore env {} (items args)

end ByteMachine.CommandLine
