/-!
# Breakpoints

A set of addresses where a run pauses. It belongs to no program and outlives them.
-/
namespace ByteMachine

structure Breakpoints where
  addresses : List Nat := []
  deriving DecidableEq, Repr

inductive Toggle where
  | added
  | removed
  deriving DecidableEq, Repr

def Toggle.name : Toggle → String
  | added => "added"
  | removed => "removed"

namespace Breakpoints

def contains (b : Breakpoints) (address : Nat) : Bool := b.addresses.contains address

def toggle (b : Breakpoints) (address : Nat) : Breakpoints × Toggle :=
  if b.contains address then (⟨b.addresses.filter (· != address)⟩, .removed)
  else (⟨address :: b.addresses⟩, .added)

theorem toggle_snd (b : Breakpoints) (a : Nat) :
    (b.toggle a).2 = if b.contains a then .removed else .added := by
  unfold toggle
  split <;> rfl

theorem contains_toggle_self (b : Breakpoints) (a : Nat) :
    (b.toggle a).1.contains a = !b.contains a := by
  by_cases h : b.contains a = true
  · rw [toggle, if_pos h, h]
    simp [contains]
  · rw [toggle, if_neg h]
    simp_all [contains]

theorem contains_toggle_of_ne (b : Breakpoints) {a a' : Nat} (h : a' ≠ a) :
    (b.toggle a).1.contains a' = b.contains a' := by
  by_cases ha : b.contains a = true
  · rw [toggle, if_pos ha]
    simp [contains, h]
  · rw [toggle, if_neg ha]
    simp [contains, h]

end Breakpoints
end ByteMachine
