import ByteMachine.Text.Basic

/-!
# Cells and areas

A frame is a rectangle of character cells with styles. Areas are rectangles of a given width and
height, drawn one by one and then put beside or above each other.
-/
namespace ByteMachine

inductive Color where
  | reset
  | black
  | red
  | green
  | yellow
  | darkGray
  | lightGreen
  | cyan
  deriving DecidableEq, Repr

structure Style where
  foreground : Color := .reset
  background : Color := .reset
  bold : Bool := false
  reversed : Bool := false
  deriving DecidableEq, Repr

structure Cell where
  glyph : Char := ' '
  style : Style := {}
  deriving DecidableEq, Repr

abbrev CellRow := List Cell

/-- Rows of cells from the top. -/
abbrev Area := List CellRow

def styled (style : Style) (s : Text) : CellRow := s.map fun c => ⟨c, style⟩

def plain (s : Text) : CellRow := styled {} s

/-- Cuts a row to a width, or fills it up with blank cells. -/
def CellRow.fit (width : Nat) (fill : Style) (row : CellRow) : CellRow :=
  row.take width ++ List.replicate (width - row.length) ⟨' ', fill⟩

namespace Area

def fit (width height : Nat) (fill : Style) (area : Area) : Area :=
  (area.take height ++ List.replicate (height - area.length) []).map (CellRow.fit width fill)

/-- Draws a box with rounded corners, a title over its upper border, and contents cut to its inside.
-/
def boxed (width height : Nat) (border : Style) (title : Text) (fill : Style) (contents : Area) :
    Area :=
  let inner := width - 2
  let title := title.take inner
  let top := ['╭'] ++ title ++ List.replicate (inner - title.length) '─' ++ ['╮']
  let bottom := ['╰'] ++ List.replicate inner '─' ++ ['╯']
  let side : CellRow := styled border ['│']
  [styled border top] ++
    (Area.fit inner (height - 2) fill contents).map (fun row => side ++ row ++ side) ++
    [styled border bottom]

def above (upper lower : Area) : Area := List.append upper lower

/-- Puts areas of the same height side by side. -/
def beside (left right : Area) : Area := left.zipWith (· ++ ·) right

end Area

/-- The text of a row, without blanks at its end. -/
def CellRow.text (row : CellRow) : Text :=
  ((row.map (·.glyph)).reverse.dropWhile (· == ' ')).reverse

structure StyleRun where
  start : Nat
  length : Nat
  style : Style
  deriving DecidableEq, Repr

/-- The runs of neighbouring cells of one style, from a column on. -/
def CellRow.runsFrom : Nat → CellRow → List StyleRun
  | _, [] => []
  | x, cell :: rest =>
    match runsFrom (x + 1) rest with
    | run :: runs =>
      if run.style = cell.style then ⟨x, run.length + 1, cell.style⟩ :: runs
      else ⟨x, 1, cell.style⟩ :: run :: runs
    | [] => [⟨x, 1, cell.style⟩]

/-- The runs of a row that have any style. -/
def CellRow.runs (row : CellRow) : List StyleRun := (runsFrom 0 row).filter (·.style ≠ {})

end ByteMachine
