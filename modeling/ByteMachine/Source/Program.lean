import ByteMachine.Instruction.Basic

/-!
# Programs

The words of a program by address, each with the number of the line that it came from.
-/
namespace ByteMachine

structure Program where
  words : Array UInt16 := #[]
  lines : Array Nat := #[]
  deriving DecidableEq, Repr

namespace Program

def size (p : Program) : Nat := p.words.size

def word? (p : Program) (address : Nat) : Option UInt16 := p.words[address]?

/-- A program from its words and their lines. -/
def ofList (rows : List (UInt16 × Nat)) : Program :=
  ⟨(rows.map (·.1)).toArray, (rows.map (·.2)).toArray⟩

theorem size_ofList (rows : List (UInt16 × Nat)) : (ofList rows).size = rows.length := by
  simp [ofList, size]

end Program
end ByteMachine
