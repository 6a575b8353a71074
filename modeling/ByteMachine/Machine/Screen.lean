/-!
# Planes of pixels

The screen is a square of pixels that are lit or not.
-/
namespace ByteMachine

/-- Pixels on a side of the screen. -/
abbrev screenSide : Nat := 32

abbrev Coordinate := Fin screenSide

/-- Coordinates wrap around at the edges of the screen. -/
def Coordinate.ofByte (b : UInt8) : Coordinate := Fin.ofNat screenSide b.toNat

def Coordinate.origin : Coordinate := ⟨0, by decide⟩

/-- Pixels row by row, the top row first. -/
structure Plane where
  pixels : Vector Bool (screenSide * screenSide)
  deriving DecidableEq

namespace Plane

def blank : Plane := ⟨Vector.replicate _ false⟩

def index (x y : Coordinate) : Fin (screenSide * screenSide) :=
  ⟨y * screenSide + x, by
    have hx : x.val < 32 := x.isLt
    have hy : y.val < 32 := y.isLt
    simp only [screenSide]
    omega⟩

def get (p : Plane) (x y : Coordinate) : Bool := p.pixels[index x y]

def set (p : Plane) (x y : Coordinate) (lit : Bool) : Plane :=
  ⟨p.pixels.set (index x y) lit (index x y).isLt⟩

def row (p : Plane) (y : Coordinate) : List Bool :=
  (List.finRange screenSide).map fun x => p.get x y

def rows (p : Plane) : List (List Bool) := (List.finRange screenSide).map p.row

theorem index_inj {x y x' y' : Coordinate} (h : index x y = index x' y') : x = x' ∧ y = y' := by
  have hx : x.val < 32 := x.isLt
  have hx' : x'.val < 32 := x'.isLt
  have hv : y.val * 32 + x.val = y'.val * 32 + x'.val := congrArg Fin.val h
  constructor <;> apply Fin.ext <;> omega

theorem get_blank (x y : Coordinate) : blank.get x y = false := by
  simp [blank, get]

theorem get_set (p : Plane) (x y x' y' : Coordinate) (lit : Bool) :
    (p.set x y lit).get x' y' = if x = x' ∧ y = y' then lit else p.get x' y' := by
  by_cases h : x = x' ∧ y = y'
  · obtain ⟨rfl, rfl⟩ := h
    simp [get, set]
  · have hi : (index x y).val ≠ (index x' y').val := fun e => h (index_inj (Fin.ext e))
    simp only [if_neg h]
    exact Vector.getElem_set_ne (index x y).isLt (index x' y').isLt hi

end Plane
end ByteMachine
