import ByteMachine.Text.Basic

/-!
# Source lines

A comment starts at a semicolon, a hash sign or two slashes, whichever comes first, and ends with
its line. What is left of a line is trimmed, and lines with nothing left are passed over; the others
keep their numbers, counted from zero.
-/
namespace ByteMachine

def stripComment : Text → Text
  | [] => []
  | ';' :: _ => []
  | '#' :: _ => []
  | '/' :: '/' :: _ => []
  | c :: rest => c :: stripComment rest

structure SourceLine where
  number : Nat
  text : Text
  deriving DecidableEq, Repr

def SourceLine.ofText (source : Text) : List SourceLine :=
  (source.lines.zipIdx.map fun (line, number) => ⟨number, (stripComment line).trim⟩).filter
    fun line => !line.text.isEmpty

end ByteMachine
