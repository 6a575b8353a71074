/-!
# Binary floating point with 64 bits

A finite number of the format is a sign and a magnitude `mantissa * 2 ^ exponent`. All arithmetic is
exact arithmetic on naturals followed by one rounding to the nearest magnitude, ties to the even
mantissa, as the format requires.
-/
namespace ByteMachine

/-- A magnitude with a mantissa below `mantissaBound` and an exponent from -1074 to 971. -/
structure Magnitude where
  mantissa : Nat
  exponent : Int
  deriving DecidableEq, Repr

structure Binary64 where
  negative : Bool
  magnitude : Magnitude
  deriving DecidableEq, Repr

namespace Magnitude

/-- A mantissa has 53 binary digits. -/
def mantissaBound : Nat := 0x20000000000000

def leastExponent : Int := -1074

def greatestExponent : Int := 971

def zero : Magnitude := ⟨0, leastExponent⟩

def isZero (x : Magnitude) : Bool := x.mantissa == 0

/-- The numerator and the denominator of `num / den` in units of `2 ^ exponent`. -/
def scaled (num den : Nat) (exponent : Int) : Nat × Nat :=
  (num * Nat.pow 2 (-exponent).toNat, den * Nat.pow 2 exponent.toNat)

/-- The natural nearest to a quotient, ties to even. -/
def nearest (num den : Nat) : Nat :=
  let q := num / den
  let twice := 2 * (num % den)
  if twice < den ∨ (twice = den ∧ q % 2 = 0) then q else q + 1

/-- The magnitude nearest to a quotient with a positive denominator, unless it is too large. -/
def ofQuotient? (num den : Nat) : Option Magnitude :=
  if num = 0 then some zero
  else
    let lowest := max leastExponent ((num.log2 : Int) - den.log2 - 53)
    let (n, d) := scaled num den lowest
    let exponent := if n / d < mantissaBound then lowest else lowest + 1
    let (n, d) := scaled num den exponent
    let mantissa := nearest n d
    let rounded : Magnitude :=
      if mantissa < mantissaBound then ⟨mantissa, exponent⟩ else ⟨mantissa / 2, exponent + 1⟩
    if rounded.exponent ≤ greatestExponent then some rounded else none

/-- A magnitude as a quotient of naturals. -/
def quotient (x : Magnitude) : Nat × Nat :=
  (x.mantissa * Nat.pow 2 x.exponent.toNat, Nat.pow 2 (-x.exponent).toNat)

def mul? (x y : Magnitude) : Option Magnitude :=
  let (a, b) := x.quotient
  let (c, d) := y.quotient
  ofQuotient? (a * c) (b * d)

/-- The quotient by a magnitude that is not zero. -/
def div? (x y : Magnitude) : Option Magnitude :=
  let (a, b) := x.quotient
  let (c, d) := y.quotient
  ofQuotient? (a * d) (b * c)

/-- The magnitude nearest to a power of ten. -/
def powerOfTen? (n : Nat) : Option Magnitude := ofQuotient? (Nat.pow 10 n) 1

/-- The greatest power of ten that has a magnitude. -/
def powerLimit : Nat := 308

/-- A natural times a power of ten, each rounded before the multiplication or division, which rounds
once more. A divisor beyond the powers of ten is taken in two parts. -/
def scaleByTen? (significand : Nat) (exponent : Int) : Option Magnitude := do
  let x ← ofQuotient? significand 1
  if exponent.natAbs ≤ powerLimit then
    let power ← powerOfTen? exponent.natAbs
    if 0 ≤ exponent then x.mul? power else x.div? power
  else if x.isZero then return zero
  else if 0 ≤ exponent then none
  else
    let part ← x.div? (← powerOfTen? powerLimit)
    let rest := exponent.natAbs - powerLimit
    if rest ≤ powerLimit then part.div? (← powerOfTen? rest) else return zero

end Magnitude
end ByteMachine
