import ByteMachine.Instruction.Encoding
import Mathlib.Algebra.Ring.Int.Defs
import Mathlib.Algebra.Ring.Nat

/-!
# Checked operations

Some operations have no value on some arguments: the element of a list at a place that it does not
have, the rest of a text after a cut through a character, a number too large for its width. The
operations here fail on such arguments. A checked function is put together from them and can fail
wherever one of them can, so an equation between it and a plain function says that it never does.

A function that may refuse its input, and say why, has two ways to end early. Its checked form keeps
them apart: `ExceptT` carries the reasons for a refusal over the failures.
-/
namespace ByteMachine

/-- What would break a session off in place of an answer. -/
inductive Checked.Failure where
  /-- A place that a sequence does not have, or one within a character. -/
  | place
  /-- A number that has no place in its width. -/
  | overflow
  /-- A mnemonic that the table of opcodes lacks. -/
  | missingMnemonic
  /-- Operands read from a word that its mnemonic does not take. -/
  | mismatchedOperands
  /-- Operands read from a line that its mnemonic does not take. -/
  | misfitOperands
  /-- An operand of an accepted instruction that has no place in a word. -/
  | unencodable (error : EncodeError)
  /-- Digits that passed for those of a word and are none. -/
  | unreadableDigits
  /-- A run that goes on past its limit. -/
  | endless
  deriving DecidableEq, Repr

abbrev Checked : Type → Type := Except Checked.Failure

namespace Checked

variable {α β ε : Type} {n : Nat}

def element (xs : List α) (i : Nat) : Checked α :=
  match xs[i]? with
  | some x => .ok x
  | none => .error .place

def firstBeyond (xs : List α) : Checked (Option α) := do
  if programLimit < xs.length then return some (← element xs programLimit) else return none

def cell (xs : Vector α n) (i : Nat) : Checked α :=
  if h : i < n then .ok xs[i] else .error .place

def setCell (xs : Vector α n) (i : Nat) (x : α) : Checked (Vector α n) :=
  if h : i < n then .ok (xs.set i x h) else .error .place

def byteLength (s : Text) : Nat := (s.map Char.utf8Size).sum

/-- The text after its first bytes, which must be those of whole characters. -/
def dropBytes : Nat → Text → Checked Text
  | 0, s => .ok s
  | _ + 1, [] => .error .place
  | k + 1, c :: s => if c.utf8Size ≤ k + 1 then dropBytes (k + 1 - c.utf8Size) s else .error .place
termination_by structural _ s => s

def add (width a b : Nat) : Checked Nat :=
  if a + b < 2 ^ width then .ok (a + b) else .error .overflow

def subtract (a b : Nat) : Checked Nat := if b ≤ a then .ok (a - b) else .error .overflow

/-- A shift is by less than the width; the bits that leave the width are dropped. -/
def shiftLeft (width a k : Nat) : Checked Nat :=
  if k < width then .ok (a <<< k % 2 ^ width) else .error .overflow

def shiftRight (width a k : Nat) : Checked Nat :=
  if k < width then .ok (a >>> k) else .error .overflow

def negate (v : Int) : Checked Int := if -v < 2 ^ 63 then .ok (-v) else .error .overflow

/-- An answer or a refusal, without failure. -/
def answer (r : Except ε α) : ExceptT ε Checked α := ExceptT.mk (.ok r)

@[simp] theorem ok_bind (a : α) (f : α → Except ε β) : (Except.ok a >>= f) = f a := rfl

@[simp] theorem pure_eq_ok (a : α) : (pure a : Checked α) = .ok a := rfl

@[simp] theorem answer_ok_bind (a : α) (f : α → ExceptT ε Checked β) :
    answer (.ok a) >>= f = f a := rfl

@[simp] theorem answer_error_bind (e : ε) (f : α → ExceptT ε Checked β) :
    answer (.error e) >>= f = answer (.error e) := rfl

@[simp] theorem lift_ok (a : α) :
    (liftM (.ok a : Checked α) : ExceptT ε Checked α) = answer (.ok a) := rfl

@[simp] theorem pure_eq_answer (a : α) : (pure a : ExceptT ε Checked α) = answer (.ok a) := rfl

@[simp] theorem throw_eq_answer (e : ε) :
    (throw e : ExceptT ε Checked α) = answer (.error e) := rfl

/-- Answers follow one another in the checked function as in the plain one. -/
@[simp] theorem answer_bind_answer (r : Except ε α) (f : α → Except ε β) :
    (answer r >>= fun a => answer (f a)) = answer (r >>= f) := by
  cases r <;> rfl

theorem run_answer (r : Except ε α) : (answer r).run = .ok r := rfl

theorem element_eq_ok {xs : List α} {i : Nat} (h : i < xs.length) : element xs i = .ok xs[i] := by
  simp [element, h]

theorem firstBeyond_eq_ok (xs : List α) : firstBeyond xs = .ok xs[programLimit]? := by
  unfold firstBeyond
  split
  · rename_i h
    rw [element_eq_ok h, List.getElem?_eq_getElem h]
    rfl
  · rename_i h
    rw [List.getElem?_eq_none (Nat.le_of_not_lt h)]
    rfl

theorem cell_eq_ok (xs : Vector α n) {i : Nat} (h : i < n) : cell xs i = .ok xs[i] := dif_pos h

theorem setCell_eq_ok (xs : Vector α n) {i : Nat} (h : i < n) (x : α) :
    setCell xs i x = .ok (xs.set i x h) := dif_pos h

theorem add_eq_ok {width a b : Nat} (h : a + b < 2 ^ width) : add width a b = .ok (a + b) :=
  if_pos h

theorem subtract_eq_ok {a b : Nat} (h : b ≤ a) : subtract a b = .ok (a - b) := if_pos h

theorem shiftLeft_eq_ok {width a k : Nat} (h : k < width) :
    shiftLeft width a k = .ok (a <<< k % 2 ^ width) := if_pos h

theorem shiftRight_eq_ok {width a k : Nat} (h : k < width) :
    shiftRight width a k = .ok (a >>> k) := if_pos h

theorem negate_eq_ok {v : Int} (h : -v < 2 ^ 63) : negate v = .ok (-v) := if_pos h

/-- A cut after a character of one byte. -/
theorem dropBytes_one {c : Char} (h : c.utf8Size = 1) (s : Text) :
    dropBytes 1 (c :: s) = .ok s := by
  simp [dropBytes, h]

/-- A list is gone through without failure when each of its elements is. -/
theorem mapM_eq_ok {f : α → Checked β} {g : α → β} {xs : List α} (h : ∀ x ∈ xs, f x = .ok (g x)) :
    xs.mapM f = .ok (xs.map g) := by
  induction xs with
  | nil => rfl
  | cons x xs ih =>
    rw [List.mapM_cons, h x List.mem_cons_self, ih fun y hy => h y (List.mem_cons_of_mem x hy)]
    rfl

end Checked
end ByteMachine
