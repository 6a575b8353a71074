import ByteMachine.Instruction.Condition

/-!
# Byte arithmetic with flags

Each operation gives a byte and the flags. The zero flag says that the byte is zero. The carry flag
is the carry of a sum, the absence of a borrow in a difference, the bit that a shift drops, and
clear after a bitwise operation.
-/
namespace ByteMachine

structure Flagged where
  value : UInt8
  flags : Flags
  deriving DecidableEq, Repr

namespace Flagged

def ofCarry (value : UInt8) (carry : Bool) : Flagged := ⟨value, ⟨value == 0, carry⟩⟩

def sum (a b : UInt8) : Flagged := ofCarry (a + b) (256 ≤ a.toNat + b.toNat)

def difference (a b : UInt8) : Flagged := ofCarry (a - b) (b ≤ a)

def bitwise (value : UInt8) : Flagged := ofCarry value false

def shiftRight (a : UInt8) : Flagged := ofCarry (a >>> 1) (a.toNat % 2 = 1)

def shiftLeft (a : UInt8) : Flagged := ofCarry (a <<< 1) (128 ≤ a.toNat)

end Flagged
end ByteMachine
