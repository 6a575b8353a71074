import ByteMachine.Text.Basic

/-!
# Numerals

Numbers written in a base up to sixteen and read back. `decimal` has no leading zeros, the padded
forms have a fixed least width, and `read?` accepts any number of leading zeros.
-/
namespace ByteMachine.Text

def decimal (n : Nat) : Text := Nat.toDigits 10 n

def signed (i : Int) : Text :=
  if i < 0 then '-' :: decimal i.natAbs else decimal i.natAbs

def hex (width n : Nat) : Text := padLeft width '0' (Nat.toDigits 16 n)

def upperHex (width n : Nat) : Text := (hex width n).map Char.toUpper

/-- The lowest binary digits of a number, the most significant first. -/
def binary : (width : Nat) → Nat → Text
  | 0, _ => []
  | width + 1, n => binary width (n / 2) ++ [if n % 2 = 1 then '1' else '0']

def digit? (base : Nat) (c : Char) : Option Nat :=
  let value :=
    if '0' ≤ c ∧ c ≤ '9' then some (c.toNat - '0'.toNat)
    else if 'a' ≤ c ∧ c ≤ 'f' then some (c.toNat - 'a'.toNat + 10)
    else if 'A' ≤ c ∧ c ≤ 'F' then some (c.toNat - 'A'.toNat + 10)
    else none
  value.filter (· < base)

/-- The number that digits denote after those already read. -/
def readFrom? (base : Nat) : Nat → Text → Option Nat
  | n, [] => some n
  | n, c :: rest => (digit? base c).bind fun d => readFrom? base (n * base + d) rest

/-- The value of one or more digits in a base. -/
def read? (base : Nat) (s : Text) : Option Nat :=
  if s.isEmpty then none else readFrom? base 0 s

theorem length_binary (width n : Nat) : (binary width n).length = width := by
  induction width generalizing n with
  | zero => rfl
  | succ width ih => simp [binary, ih]

end ByteMachine.Text
