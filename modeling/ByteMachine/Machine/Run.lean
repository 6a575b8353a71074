import ByteMachine.Machine.Breakpoints
import ByteMachine.Machine.Execution

/-!
# Runs

A run repeats steps until the machine halts, until it arrives at a breakpoint, or until it has
executed as many instructions as it may. A breakpoint where the run starts does not stop it, so a
paused run can go on.
-/
namespace ByteMachine

inductive StopReason where
  | halted
  | breakpoint
  | limit
  deriving DecidableEq, Repr

def StopReason.name : StopReason → String
  | halted => "halted"
  | breakpoint => "breakpoint"
  | limit => "limit"

structure RunResult where
  reason : StopReason
  executed : Nat
  fault : Option Fault
  deriving DecidableEq, Repr

namespace Machine

/-- Steps while the limit, the breakpoints and the machine allow it; `fresh` holds until the first
instruction has been executed. -/
def repeatStep (program : Program) (breakpoints : Breakpoints) :
    (limit : Nat) → (fresh : Bool) → Machine → Machine × StopReason × Option Fault
  | 0, _, m => (m, .limit, none)
  | limit + 1, fresh, m =>
    if !fresh && breakpoints.contains m.processor.pc.toNat then (m, .breakpoint, none)
    else match m.step program with
      | (m, .executed) => repeatStep program breakpoints limit false m
      | (m, .halted) => (m, .halted, none)
      | (m, .faulted fault) => (m, .halted, some fault)

def setStatus (m : Machine) (status : Status) : Machine :=
  { m with processor := { m.processor with status } }

def run (program : Program) (breakpoints : Breakpoints) (limit : Nat) (m : Machine) :
    Machine × RunResult :=
  if m.isHalted then (m, ⟨.halted, 0, none⟩)
  else
    let (final, reason, fault) := repeatStep program breakpoints limit true (m.setStatus .running)
    (if final.isHalted then final else final.setStatus .ready,
      ⟨reason, final.processor.executed - m.processor.executed, fault⟩)

end Machine
end ByteMachine
