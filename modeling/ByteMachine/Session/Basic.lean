import ByteMachine.Session.Snapshot
import ByteMachine.Source.Assembly
import ByteMachine.Source.Image

/-!
# Debugger sessions

A session holds one program, one machine and one set of breakpoints. Loading a program resets the
machine and keeps the breakpoints; a rejected program changes nothing.
-/
namespace ByteMachine

def defaultRunLimit : Nat := 100000

structure Config where
  /-- Instructions that a run may execute when the caller sets no limit. -/
  runLimit : Nat := defaultRunLimit
  /-- Without a seed the operating system gives a key to each restart of the generator. -/
  seed : Option UInt64 := none
  deriving DecidableEq, Repr

structure Session where
  config : Config
  program : Program := {}
  machine : Machine
  breakpoints : Breakpoints := {}
  fault : Option Fault := none
  stop : Option StopReason := none

structure LoadReply where
  success : Bool
  message : String
  deriving DecidableEq, Repr

namespace Session

def new (config : Config) (entropy : Entropy) : Session :=
  { config, machine := .new (.new config.seed entropy) }

def snapshot (s : Session) : Snapshot := s.machine.snapshot s.program s.fault s.stop

def listing (s : Session) : List ListingRow :=
  s.program.listing s.machine.processor.pc.toNat s.breakpoints

def reset (s : Session) : Session :=
  { s with machine := s.machine.reset, fault := none, stop := none }

def install (s : Session) (program : Program) : Session := { s with program }.reset

def load (s : Session) (source : Text) : Session × LoadReply :=
  match assemble source with
  | .ok program => (s.install program, ⟨true, s!"assembled {program.size} instructions"⟩)
  | .error diagnostics => (s, ⟨false, reportText SourceError.message diagnostics⟩)

def loadImage (s : Session) (image : Text) : Session × LoadReply :=
  match readImage image with
  | .ok program => (s.install program, ⟨true, s!"loaded {program.size} instructions"⟩)
  | .error diagnostics => (s, ⟨false, reportText ImageError.message diagnostics⟩)

def step (s : Session) : Session :=
  let (machine, result) := s.machine.step s.program
  let fault := match result with
    | .faulted fault => some fault
    | _ => s.fault
  { s with machine, fault, stop := if machine.isHalted then some .halted else none }

def run (s : Session) (limit : Option Nat) : Session :=
  let (machine, result) := s.machine.run s.program s.breakpoints (limit.getD s.config.runLimit)
  { s with machine, fault := result.fault.or s.fault, stop := some result.reason }

/-- Only addresses that a program can have take a breakpoint. -/
def breakpoint (s : Session) (address : Nat) : Session × Option Toggle :=
  if address < programLimit then
    let (breakpoints, toggle) := s.breakpoints.toggle address
    ({ s with breakpoints }, some toggle)
  else (s, none)

theorem breakpoint_of_lt {address : Nat} (h : address < programLimit) (s : Session) :
    s.breakpoint address = ({ s with breakpoints := (s.breakpoints.toggle address).1 },
      some (s.breakpoints.toggle address).2) := by
  rw [breakpoint, if_pos h]

theorem breakpoint_of_le {address : Nat} (h : programLimit ≤ address) (s : Session) :
    s.breakpoint address = (s, none) := by
  rw [breakpoint, if_neg (Nat.not_lt.mpr h)]

def input (s : Session) (value : UInt8) : Session :=
  { s with machine := { s.machine with memory := s.machine.memory.setController value } }

end Session

inductive Operation where
  | load (source : Text)
  | loadImage (image : Text)
  | step
  | run (limit : Option Nat)
  | reset
  | state
  | listing
  | breakpoint (address : Nat)
  | input (value : UInt8)
  deriving DecidableEq, Repr

inductive Response where
  | loaded (reply : LoadReply)
  | state (snapshot : Snapshot)
  | listing (rows : List ListingRow)
  | toggled (toggle : Option Toggle)
  deriving DecidableEq

namespace Session

def perform (s : Session) : Operation → Session × Response
  | .load source => let (s, reply) := s.load source; (s, .loaded reply)
  | .loadImage image => let (s, reply) := s.loadImage image; (s, .loaded reply)
  | .step => let s := s.step; (s, .state s.snapshot)
  | .run limit => let s := s.run limit; (s, .state s.snapshot)
  | .reset => let s := s.reset; (s, .state s.snapshot)
  | .state => (s, .state s.snapshot)
  | .listing => (s, .listing s.listing)
  | .breakpoint address => let (s, toggle) := s.breakpoint address; (s, .toggled toggle)
  | .input value => let s := s.input value; (s, .state s.snapshot)

/-- The session after a sequence of operations, and what they answered. -/
def performAll : Session → List Operation → Session × List Response
  | s, [] => (s, [])
  | s, op :: ops =>
    let (next, response) := s.perform op
    let (final, responses) := performAll next ops
    (final, response :: responses)

end Session
end ByteMachine
