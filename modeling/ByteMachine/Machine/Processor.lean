import ByteMachine.Instruction.Condition

/-!
# The processor

Sixteen registers, of which the first always reads zero, a program counter, two flags, and a stack
of return addresses of bounded depth.
-/
namespace ByteMachine

/-- Return addresses that the call stack can hold. -/
def callDepth : Nat := 16

inductive Status where
  | ready
  | running
  | halted
  deriving DecidableEq, Repr

structure Processor where
  registers : Vector UInt8 16 := Vector.replicate 16 0
  pc : UInt16 := 0
  flags : Flags := {}
  /-- Return addresses, the innermost call first. -/
  calls : List UInt16 := []
  status : Status := .ready
  /-- Instructions executed since the last reset. The count is exact; below `2 ^ 64` it is what a
  counter of 64 bits holds. -/
  executed : Nat := 0
  /-- The address of the instruction executed last. -/
  last : Option UInt16 := none
  deriving DecidableEq

namespace Processor

def read (p : Processor) (r : UInt8) : UInt8 :=
  if r = 0 then 0 else p.registers[r.toNat]?.getD 0

def write (p : Processor) (r value : UInt8) : Processor :=
  if r = 0 then p else { p with registers := p.registers.setIfInBounds r.toNat value }

def isHalted (p : Processor) : Bool := p.status == .halted

/-- Pushes a return address, if the stack has a place for it. -/
def pushReturn (p : Processor) (address : UInt16) : Processor × Bool :=
  if p.calls.length < callDepth then ({ p with calls := address :: p.calls }, true) else (p, false)

def popReturn (p : Processor) : Processor × Option UInt16 :=
  match p.calls with
  | [] => (p, none)
  | address :: calls => ({ p with calls }, some address)

def halt (p : Processor) : Processor := { p with status := .halted }

end Processor
end ByteMachine
