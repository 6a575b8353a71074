import ByteMachine.Decimal.Binary64
import ByteMachine.Text.Numeral

/-!
# The shortest decimal text

The text of a number has the fewest significant digits that still single it out among all numbers of
the format, and of those the nearest. For one digit, two digits and so on, the two neighbours of the
number on that decimal grid are tried in exact arithmetic against the interval of reals that round
to the number.
-/
namespace ByteMachine

/-- A decimal number `digits * 10 ^ exponent`. -/
structure DecimalFloat where
  digits : Nat
  exponent : Int
  deriving DecidableEq, Repr

namespace Magnitude

/-- Powers that turn all quantities of the search into naturals: no magnitude has more than
`twoScale` binary places, and no grid more than `tenScale` decimal ones. -/
def twoScale : Nat := 1080

def tenScale : Nat := 400

/-- The power of ten of the first digit of a magnitude that is not zero. -/
def leadingExponent (x : Magnitude) : Int :=
  let (num, den) := x.quotient
  ((Nat.toDigits 10 (num * Nat.pow 10 tenScale / den)).length : Int) - 1 - tenScale

/-- A quarter of the magnitude's last place, scaled to a natural. -/
def quarterPlace (x : Magnitude) : Nat :=
  Nat.pow 2 (x.exponent - 2 + twoScale).toNat * Nat.pow 10 tenScale

/-- The scaled value, and the scaled ends of the interval of reals that round to it. -/
def value (x : Magnitude) : Nat := 4 * x.mantissa * x.quarterPlace

def low (x : Magnitude) : Nat :=
  let gap := if 2 * x.mantissa = mantissaBound ∧ leastExponent < x.exponent then 1 else 2
  (4 * x.mantissa - gap) * x.quarterPlace

def high (x : Magnitude) : Nat := (4 * x.mantissa + 2) * x.quarterPlace

/-- Whether a scaled real rounds to the magnitude. The ends of the interval do if the mantissa is
even. -/
def singledOutBy (x : Magnitude) (scaled : Nat) : Bool :=
  if x.mantissa % 2 = 0 then x.low ≤ scaled && scaled ≤ x.high
  else x.low < scaled && scaled < x.high

/-- The nearest neighbour on the grid of `10 ^ exponent` that singles the magnitude out. -/
def onGrid? (x : Magnitude) (exponent : Int) : Option DecimalFloat :=
  let unit := Nat.pow 10 (exponent + tenScale).toNat * Nat.pow 2 twoScale
  let below := x.value / unit
  let above := below + 1
  let nearAbove := unit < 2 * (x.value % unit) ∨ (2 * (x.value % unit) = unit ∧ below % 2 = 1)
  match x.singledOutBy (below * unit), x.singledOutBy (above * unit) with
  | true, true => some ⟨if nearAbove then above else below, exponent⟩
  | true, false => some ⟨below, exponent⟩
  | false, true => some ⟨above, exponent⟩
  | false, false => none

/-- The first grid with a hit, from the coarsest on; seventeen digits always suffice. -/
def firstGrid (x : Magnitude) : (tries : Nat) → (exponent : Int) → DecimalFloat
  | 0, exponent => ⟨0, exponent⟩
  | tries + 1, exponent => (x.onGrid? exponent).getD (firstGrid x tries (exponent - 1))

def shortest (x : Magnitude) : DecimalFloat := x.firstGrid 17 x.leadingExponent

end Magnitude

namespace DecimalFloat

/-- The digits without zeros at the end. -/
def significant (x : DecimalFloat) : Text :=
  ((Text.decimal x.digits).reverse.dropWhile (· == '0')).reverse

/-- The power of ten of the first digit. -/
def leading (x : DecimalFloat) : Int := x.exponent + (Text.decimal x.digits).length - 1

/-- Positional from `10 ^ -5` up to `10 ^ 16`, with at least one digit on both sides of the point;
else with an exponent that always has a sign. -/
def text (x : DecimalFloat) : Text :=
  let digits := x.significant
  let leading := x.leading
  if digits.isEmpty then "0.0".toList
  else if -5 ≤ leading ∧ leading < 0 then
    "0.".toList ++ List.replicate (-leading - 1).toNat '0' ++ digits
  else if 0 ≤ leading ∧ leading < 16 then
    let whole := leading.toNat + 1
    let fraction := digits.drop whole
    (digits ++ List.replicate (whole - digits.length) '0').take whole ++ ['.'] ++
      if fraction.isEmpty then ['0'] else fraction
  else
    let fraction := digits.drop 1
    digits.take 1 ++ (if fraction.isEmpty then [] else '.' :: fraction) ++
      ['e', if leading < 0 then '-' else '+'] ++ Text.decimal leading.natAbs

end DecimalFloat

def Binary64.text (x : Binary64) : Text :=
  let magnitude := if x.magnitude.isZero then "0.0".toList else x.magnitude.shortest.text
  if x.negative then '-' :: magnitude else magnitude

end ByteMachine
