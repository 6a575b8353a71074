import ByteMachine.Text.Basic

/-!
# Branch conditions

A branch is taken or not by one of the two flags. A word holds a condition in two bits, and source
text names it in several ways.
-/
namespace ByteMachine

structure Flags where
  zero : Bool := false
  carry : Bool := false
  deriving DecidableEq, Repr

inductive Condition where
  | zero
  | notZero
  | carry
  | notCarry
  deriving DecidableEq, Repr

namespace Condition

def all : List Condition := [zero, notZero, carry, notCarry]

def name : Condition → String
  | zero => "zero"
  | notZero => "notzero"
  | carry => "carry"
  | notCarry => "notcarry"

def bits : Condition → Nat
  | zero => 0
  | notZero => 1
  | carry => 2
  | notCarry => 3

/-- Only the two lowest bits count. -/
def ofBits (n : Nat) : Condition :=
  match n % 4 with
  | 0 => zero
  | 1 => notZero
  | 2 => carry
  | _ => notCarry

/-- The words that name a condition in source text; its name comes first. -/
def aliases : Condition → List String
  | zero => ["zero", "z", "eq", "="]
  | notZero => ["notzero", "nz", "ne", "!="]
  | carry => ["carry", "c", "ge", ">="]
  | notCarry => ["notcarry", "nc", "lt", "<"]

/-- The condition that a word of source text names, in any letter case. -/
def ofToken? (token : Text) : Option Condition :=
  all.find? fun c => c.aliases.any fun a => a.toList == token.fold

def holds : Condition → Flags → Bool
  | zero, f => f.zero
  | notZero, f => !f.zero
  | carry, f => f.carry
  | notCarry, f => !f.carry

theorem ofBits_bits (c : Condition) : ofBits c.bits = c := by cases c <;> rfl

theorem bits_ofBits (n : Nat) : (ofBits n).bits = n % 4 := by
  have h : n % 4 = 0 ∨ n % 4 = 1 ∨ n % 4 = 2 ∨ n % 4 = 3 := by omega
  rcases h with h | h | h | h <;> simp [ofBits, h, bits]

end Condition
end ByteMachine
