import ByteMachine.Source.Diagnostic
import ByteMachine.Source.Line
import ByteMachine.Source.Program
import ByteMachine.Text.Numeral

/-!
# Machine code images

An image has one word on each line, as sixteen binary digits. Comments are passed over, and so are
blanks and underscores between digits.
-/
namespace ByteMachine

structure ImageRow where
  line : Nat
  word : Except ImageError UInt16

/-- The digits of a line, with comment, blanks and underscores taken out. -/
def imageDigits (line : Text) : Text :=
  (stripComment line).filter fun c => !isBlank c && c != '_'

def readWord (digits : Text) : Except ImageError UInt16 :=
  if digits.length = 16 then
    match Text.read? 2 digits with
    | some n => .ok (UInt16.ofNat n)
    | none => .error (.malformedWord digits)
  else .error (.malformedWord digits)

/-- The lines that are not empty, each with its word. -/
def imageRows (image : Text) : List ImageRow :=
  image.lines.zipIdx.filterMap fun (line, number) =>
    let digits := imageDigits line
    if digits.isEmpty then none else some ⟨number, readWord digits⟩

/-- What is wrong with the rows after a number of good words; `total` counts the good words of the
whole image. Only the first good word beyond the limit is reported for its place. -/
def imageDiagnostics (total : Nat) : Nat → List ImageRow → List (Diagnostic ImageError)
  | _, [] => []
  | good, row :: rest =>
    match row.word with
    | .ok _ =>
      (if good = programLimit then [⟨row.line, .imageTooLong total⟩] else []) ++
        imageDiagnostics total (good + 1) rest
    | .error e => ⟨row.line, e⟩ :: imageDiagnostics total good rest

def imageWords (rows : List ImageRow) : List (UInt16 × Nat) :=
  rows.filterMap fun row => row.word.toOption.map fun w => (w, row.line)

/-- The program that an image holds, or all that is wrong with the image. -/
def readImage (image : Text) : Except (List (Diagnostic ImageError)) Program :=
  let rows := imageRows image
  let words := imageWords rows
  match imageDiagnostics words.length 0 rows with
  | [] => .ok (Program.ofList words)
  | diagnostics => .error diagnostics

end ByteMachine
