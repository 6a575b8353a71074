import ByteMachine.Proofs.Runs
import Mathlib.Algebra.Ring.Parity

/-!
# Breakpoints and how often they were toggled

Only toggles change the breakpoints of a session. So an address carries a breakpoint exactly when it
was toggled an odd number of times, whatever was loaded, reset and run in between, and also when it
lay beyond the program at the time. What a toggle answers and what a listing marks follows from this
number.
-/
namespace ByteMachine

def Response.hasToggled : Response → Bool
  | .toggled toggle? => toggle?.isSome
  | _ => false

namespace Session

/-- How many operations of a sequence toggle the breakpoint at an address and succeed. -/
def toggleCount (s : Session) (ops : List Operation) (address : Nat) : Nat :=
  (ops.zip (s.performAll ops).2).countP fun (op, response) =>
    op == .breakpoint address && response.hasToggled

theorem breakpoints_perform {s : Session} {op : Operation}
    (h : ∀ address, op ≠ .breakpoint address) :
    (s.perform op).1.breakpoints = s.breakpoints := by
  cases op with
  | load source =>
    simp only [perform, load]
    cases assemble source with
    | ok p => rfl
    | error diagnostics => rfl
  | loadImage image =>
    simp only [perform, loadImage]
    cases readImage image with
    | ok p => rfl
    | error diagnostics => rfl
  | breakpoint address => exact absurd rfl (h address)
  | step | run limit | reset | state | listing | input value => rfl

/-- One operation changes whether an address carries a breakpoint exactly when it toggles it. -/
theorem contains_perform (s : Session) (op : Operation) (a : Nat) :
    (s.perform op).1.breakpoints.contains a =
      (s.breakpoints.contains a ^^ (op == .breakpoint a && (s.perform op).2.hasToggled)) := by
  by_cases hop : ∃ address, op = .breakpoint address
  · obtain ⟨address, rfl⟩ := hop
    rcases Nat.lt_or_ge address programLimit with hlimit | hlimit
    · simp only [perform, breakpoint_of_lt hlimit, Response.hasToggled, Option.isSome_some,
        Bool.and_true]
      by_cases ha : a = address
      · subst ha
        rw [Breakpoints.contains_toggle_self]
        simp
      · have hne : Operation.breakpoint address ≠ .breakpoint a := fun h =>
          ha (Operation.breakpoint.inj h).symm
        rw [Breakpoints.contains_toggle_of_ne _ ha, beq_false_of_ne hne, Bool.xor_false]
    · simp [perform, breakpoint_of_le hlimit, Response.hasToggled]
  · have hne : ∀ address, op ≠ .breakpoint address := fun address h => hop ⟨address, h⟩
    rw [breakpoints_perform hne, beq_false_of_ne (hne a), Bool.false_and, Bool.xor_false]

theorem toggleCount_cons (s : Session) (op : Operation) (ops : List Operation) (a : Nat) :
    s.toggleCount (op :: ops) a = (s.perform op).1.toggleCount ops a +
      if op == .breakpoint a && (s.perform op).2.hasToggled then 1 else 0 := by
  unfold toggleCount
  rw [performAll_cons, List.zip_cons_cons, List.countP_cons]

theorem contains_performAll (s : Session) (ops : List Operation) (a : Nat) :
    (s.performAll ops).1.breakpoints.contains a =
      (s.breakpoints.contains a ^^ decide (Odd (s.toggleCount ops a))) := by
  induction ops generalizing s with
  | nil =>
    have hnone : ¬ Odd (s.toggleCount [] a) := Nat.not_odd_zero
    rw [decide_eq_false hnone, Bool.xor_false]
    rfl
  | cons op ops ih =>
    rw [performAll_cons, ih, contains_perform, toggleCount_cons, Bool.xor_assoc]
    congr 1
    cases op == .breakpoint a && (s.perform op).2.hasToggled with
    | true =>
      have hodd (n : Nat) : decide (Odd (n + 1)) = !decide (Odd n) := by
        rw [← decide_not, decide_eq_decide]
        exact Nat.odd_add_one
      rw [if_pos rfl, hodd, Bool.true_xor]
    | false => rw [if_neg Bool.false_ne_true, Nat.add_zero, Bool.false_xor]

/-- A new session has no breakpoints, so only the toggles count. -/
theorem contains_performAll_new (config : Config) (entropy : Entropy) (history : List Operation)
    (a : Nat) :
    ((new config entropy).performAll history).1.breakpoints.contains a =
      decide (Odd ((new config entropy).toggleCount history a)) := by
  rw [contains_performAll]
  exact Bool.false_xor _

theorem marks_listing (s : Session) :
    s.listing.map (fun row => (row.address, row.breakpoint)) =
      (List.range s.program.size).map fun a => (a, s.breakpoints.contains a) := by
  have haddresses : s.program.words.toList.zipIdx.map Prod.snd = List.range s.program.size := by
    rw [List.zipIdx_map_snd, List.range_eq_range', Array.length_toList]
    rfl
  rw [listing, Program.listing, List.map_map, ← haddresses, List.map_map]
  rfl

/-- After any history a toggle succeeds for the addresses that a program can have, and tells by the
number of toggles before whether it added or removed. A listing then marks the rows of the addresses
that were toggled an odd number of times. -/
theorem breakpoints_by_parity (config : Config) (entropy : Entropy) (history : List Operation) :
    let s := ((new config entropy).performAll history).1
    let count := (new config entropy).toggleCount history
    (∀ address, (s.perform (.breakpoint address)).2 = .toggled
      (if address < 1024 then some (if Even (count address) then .added else .removed)
        else none)) ∧
    ∃ rows, (s.perform .listing).2 = .listing rows ∧
      rows.map (fun row => (row.address, row.breakpoint)) =
        (List.range s.program.size).map fun a => (a, decide (Odd (count a))) := by
  intro s count
  have hcontains (a : Nat) : s.breakpoints.contains a = decide (Odd (count a)) :=
    contains_performAll_new config entropy history a
  refine ⟨fun address => ?_, s.listing, rfl, ?_⟩
  · rcases Nat.lt_or_ge address 1024 with hlimit | hlimit
    · rw [if_pos hlimit]
      simp only [perform, breakpoint_of_lt hlimit, Breakpoints.toggle_snd, hcontains,
        decide_eq_true_eq, ← Nat.not_even_iff_odd, ite_not]
    · rw [if_neg hlimit.not_gt]
      simp only [perform, breakpoint_of_le hlimit]
  · rw [marks_listing]
    simp only [hcontains]

end Session
end ByteMachine
