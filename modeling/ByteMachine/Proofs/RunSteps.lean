import ByteMachine.Proofs.RunSplitting
import Mathlib.Order.Bounds.Basic

/-!
# Runs as repeated steps

A run of a session ends where steps of the session end: as many as it takes, one at least, until the
machine has halted, the limit is reached or the program counter is at a breakpoint. The induction
is on the limit, over repeated steps that may begin at a breakpoint or not. All steps but the last
execute an instruction, so the counter of instructions tells the number of steps, less one if the
last of them halted the machine at the end of the program or by a fault.
-/
namespace ByteMachine

namespace Machine

/-- The next step executes no instruction: the program has ended, or the step is a fault. -/
def Refuses (program : Program) (m : Machine) : Prop :=
  program.word? m.processor.pc.toNat = none ∨ ∃ fault, (m.step program).2 = .faulted fault

theorem executed_step_of_refuses {program : Program} {m : Machine} (h : m.Refuses program) :
    (m.step program).1.processor.executed = m.processor.executed := by
  unfold Refuses at h
  have hstep := m.stepped program
  generalize m.step program = r at hstep h
  cases hstep with
  | idle hhalted => rfl
  | ended hactive hend => rfl
  | illegal hactive word e hword hdecode => rfl
  | refused hactive word i fault hword hdecode hexecute => rfl
  | executed hactive word i m' hword hdecode hexecute =>
    rcases h with hend | ⟨fault, hfault⟩
    · rw [hword] at hend
      cases hend
    · split at hfault <;> cases hfault

theorem executed_step_of_not_refuses {program : Program} {m : Machine}
    (hactive : m.isHalted = false) (h : ¬ m.Refuses program) : m.Executes program := by
  unfold Refuses at h
  rw [not_or] at h
  unfold Executes
  have hstep := m.stepped program
  generalize m.step program = r at hstep h
  cases hstep with
  | idle hhalted => simp [hactive] at hhalted
  | ended hactive hend => exact absurd hend h.1
  | illegal hactive word e hword hdecode => exact absurd ⟨_, rfl⟩ h.2
  | refused hactive word i fault hword hdecode hexecute => exact absurd ⟨_, rfl⟩ h.2
  | executed hactive word i m' hword hdecode hexecute =>
    exact congrArg (· + 1) (execute_effect hexecute).1.executed

end Machine

namespace Session

def StopsAfter (s : Session) (n k : Nat) : Prop :=
  (step^[k] s).machine.isHalted = true ∨ k = n ∨
    s.breakpoints.contains (step^[k] s).machine.processor.pc.toNat = true

instance (s : Session) (n k : Nat) : Decidable (s.StopsAfter n k) :=
  inferInstanceAs (Decidable (_ ∨ _ ∨ _))

/-- Why a run of `n` steps stops after `k` of them. A halt comes first, then the limit. -/
def reasonAfter (s : Session) (n k : Nat) : StopReason :=
  if (step^[k] s).machine.isHalted then .halted else if k = n then .limit else .breakpoint

def settle (s : Session) (r : Machine × StopReason × Option Fault) : Session :=
  { s with machine := r.1, fault := r.2.2.or s.fault, stop := some r.2.1 }

theorem machine_step (s : Session) : s.step.machine = (s.machine.step s.program).1 := rfl

theorem fault_step (s : Session) :
    s.step.fault = (s.machine.step s.program).2.fault?.or s.fault := by
  unfold step
  generalize s.machine.step s.program = r
  obtain ⟨m, result⟩ := r
  cases result <;> rfl

theorem settle_step {s : Session} (h : (s.machine.step s.program).2 = .executed)
    (r : Machine × StopReason × Option Fault) : s.step.settle r = s.settle r := by
  have hfault : s.step.fault = s.fault := by
    rw [fault_step, h]
    rfl
  rw [settle, hfault]
  rfl

theorem settle_halted (s : Session) :
    s.settle ((s.machine.step s.program).1, .halted, (s.machine.step s.program).2.fault?) =
      { s.step with stop := some .halted } := by
  rw [settle, ← fault_step]
  rfl

theorem run_eq_settle {s : Session} (hrest : AtRest s.machine)
    (hactive : s.machine.isHalted = false) (n : Nat) : s.run (some n) =
      s.settle (Machine.repeatStep s.program s.breakpoints n true s.machine) := by
  obtain ⟨⟨final, reason, fault⟩, hsteps⟩ :
    ∃ r, Machine.repeatStep s.program s.breakpoints n true s.machine = r := ⟨_, rfl⟩
  simp only [run, Option.getD_some, Machine.run_eq_repeatStep hrest hactive n hsteps, hsteps,
    settle]

theorem iterate_step_succ (s : Session) (k : Nat) : step^[k + 1] s = step^[k] s.step :=
  Function.iterate_succ_apply step k s

theorem stopsAfter_succ (s : Session) (n k : Nat) :
    s.StopsAfter (n + 1) (k + 1) ↔ s.step.StopsAfter n k := by
  have hbreakpoints : s.step.breakpoints = s.breakpoints := rfl
  simp only [StopsAfter, iterate_step_succ, hbreakpoints, Nat.add_right_cancel_iff]

theorem reasonAfter_succ (s : Session) (n k : Nat) :
    s.reasonAfter (n + 1) (k + 1) = s.step.reasonAfter n k := by
  simp only [reasonAfter, iterate_step_succ, Nat.add_right_cancel_iff]

/-- Without a pause there is no reason to stop before the first step. -/
theorem one_le_of_stopsAfter {s : Session} {n j : Nat} {fresh : Bool}
    (hactive : s.machine.isHalted = false)
    (hpause : (!fresh && s.breakpoints.contains s.machine.processor.pc.toNat) = false)
    (hfresh : fresh = true → 1 ≤ j) (hstops : s.StopsAfter (n + 1) j) : 1 ≤ j := by
  by_contra hj
  obtain rfl : j = 0 := by omega
  rcases hstops with hhalted | hfull | hpc
  · simp [hactive] at hhalted
  · omega
  · have hbreak : s.breakpoints.contains s.machine.processor.pc.toNat = true := hpc
    rw [hbreak, Bool.and_true, Bool.not_eq_false'] at hpause
    exact hj (hfresh hpause)

/-- Where repeated steps stop. Fresh steps do not stop before the first of them. -/
theorem exists_stopsAfter (s : Session) (n : Nat) (fresh : Bool) (hn : fresh = true → 1 ≤ n)
    (hactive : s.machine.isHalted = false) :
    ∃ k, IsLeast {k | (fresh = true → 1 ≤ k) ∧ s.StopsAfter n k} k ∧
      s.settle (Machine.repeatStep s.program s.breakpoints n fresh s.machine) =
        { step^[k] s with stop := some (s.reasonAfter n k) } := by
  induction n generalizing s fresh with
  | zero =>
    refine ⟨0, ⟨⟨hn, .inr (.inl rfl)⟩, fun j _ => Nat.zero_le j⟩, ?_⟩
    simp [Machine.repeatStep, settle, reasonAfter, hactive]
  | succ n ih =>
    cases hpause : !fresh && s.breakpoints.contains s.machine.processor.pc.toNat with
    | true =>
      obtain ⟨hfresh, hpc⟩ : fresh = false ∧ _ := by simpa using hpause
      rw [Machine.repeatStep_of_paused hpause]
      refine ⟨0, ⟨⟨by simp [hfresh], .inr (.inr hpc)⟩, fun j _ => Nat.zero_le j⟩, ?_⟩
      simp [settle, reasonAfter, hactive]
    | false =>
      have hpos (j : Nat) (hfresh : fresh = true → 1 ≤ j) (hstops : s.StopsAfter (n + 1) j) :
          1 ≤ j :=
        one_le_of_stopsAfter hactive hpause hfresh hstops
      rcases s.machine.step_counts s.program with ⟨hresult, hactive', -⟩ | ⟨hresult, hhalted, -⟩
      · obtain ⟨k, ⟨⟨-, hstops⟩, hleast⟩, hsettle⟩ := ih s.step false (by simp) hactive'
        refine ⟨k + 1, ⟨⟨fun _ => Nat.succ_pos k, (s.stopsAfter_succ n k).mpr hstops⟩, ?_⟩, ?_⟩
        · rintro j ⟨hfresh, hstops'⟩
          obtain ⟨j, rfl⟩ := Nat.exists_eq_add_one.mpr (hpos j hfresh hstops')
          exact Nat.succ_le_succ (hleast ⟨by simp, (s.stopsAfter_succ n j).mp hstops'⟩)
        · rw [Machine.repeatStep_of_executed hpause hresult, ← settle_step hresult,
            iterate_step_succ, reasonAfter_succ]
          exact hsettle
      · rw [Machine.repeatStep_of_halted hpause hresult, settle_halted]
        refine ⟨1, ⟨⟨fun _ => Nat.le_refl 1, .inl hhalted⟩, fun j hj => hpos j hj.1 hj.2⟩, ?_⟩
        simp [reasonAfter, machine_step, hhalted]

/-- A run leaves the session as some steps do, but for its reason, which is a halt when the machine
has halted. -/
theorem exists_run_eq {s : Session} (hrest : AtRest s.machine) (limit : Option Nat) :
    ∃ k reason, s.run limit = { step^[k] s with stop := some reason } ∧
      (reason = .halted ↔ (step^[k] s).machine.isHalted = true) := by
  cases hhalted : s.machine.isHalted with
  | true =>
    refine ⟨0, .halted, ?_, by simp [hhalted]⟩
    simp [run, Machine.run_of_halted hhalted]
  | false =>
    have hlimit : s.run limit = s.run (some (limit.getD s.config.runLimit)) := rfl
    rw [hlimit, run_eq_settle hrest hhalted]
    cases limit.getD s.config.runLimit with
    | zero => exact ⟨0, .limit, rfl, by simp [hhalted]⟩
    | succ n =>
      obtain ⟨k, -, hsettle⟩ := s.exists_stopsAfter (n + 1) true (fun _ => by omega) hhalted
      refine ⟨k, _, hsettle, ?_⟩
      unfold reasonAfter
      split
      · simp_all
      · split <;> simp_all

theorem program_iterate_step (s : Session) (k : Nat) : (step^[k] s).program = s.program := by
  induction k with
  | zero => rfl
  | succ k ih => rw [Function.iterate_succ_apply', ← ih]; rfl

/-- Steps that leave the machine active have executed an instruction each. -/
theorem executed_iterate_step (s : Session) (k : Nat)
    (hactive : (step^[k] s).machine.isHalted = false) :
    (step^[k] s).machine.processor.executed = s.machine.processor.executed + k := by
  induction k with
  | zero => rfl
  | succ k ih =>
    rw [Function.iterate_succ_apply', machine_step] at hactive ⊢
    cases hbefore : (step^[k] s).machine.isHalted with
    | true =>
      rw [(Stepped.idle hbefore : Stepped (step^[k] s).program _ _).eq, hbefore] at hactive
      cases hactive
    | false =>
      rcases (step^[k] s).machine.step_counts (step^[k] s).program with
        ⟨-, -, hcount⟩ | ⟨-, hhalted, -⟩
      · rw [hcount, ih hbefore, Nat.add_assoc]
      · rw [hhalted] at hactive
        cases hactive

/-- The steps before a run stops leave the machine active. -/
theorem isHalted_before_stop {s : Session} {n k : Nat}
    (hk : IsLeast {k | 1 ≤ k ∧ s.StopsAfter n k} (k + 1)) (hactive : s.machine.isHalted = false) :
    (step^[k] s).machine.isHalted = false := by
  by_contra hhalted
  rw [Bool.not_eq_false] at hhalted
  have hpos : 1 ≤ k := by
    by_contra hzero
    obtain rfl : k = 0 := by omega
    simp [hactive] at hhalted
  have hle : k + 1 ≤ k := hk.2 ⟨hpos, .inl hhalted⟩
  omega

/-- A run of a session is steps of the session, as many as it takes until there is a reason to stop.
It leaves the session as these steps do, but for the reason. -/
theorem run_eq_iterate_step (config : Config) (entropy : Entropy) (ops : List Operation)
    {s : Session} (hs : ((new config entropy).performAll ops).1 = s)
    (hactive : s.machine.isHalted = false) {n : Nat} (hn : 1 ≤ n) :
    ∃ k, IsLeast {k | 1 ≤ k ∧ s.StopsAfter n k} k ∧
      s.run (some n) = { step^[k] s with stop := some (s.reasonAfter n k) } ∧
      ((step^[k - 1] s).machine.Refuses s.program →
        (s.run (some n)).machine.processor.executed = s.machine.processor.executed + (k - 1)) ∧
      (¬ (step^[k - 1] s).machine.Refuses s.program →
        (s.run (some n)).machine.processor.executed = s.machine.processor.executed + k) := by
  have hrest : AtRest s.machine := by
    rw [← hs]
    exact (performAll_preserves (fun _ op h => h.perform op) (Sound.new config entropy) ops).atRest
  obtain ⟨k, hk, hsettle⟩ := s.exists_stopsAfter n true (fun _ => hn) hactive
  simp only [forall_const] at hk
  rw [← run_eq_settle hrest hactive] at hsettle
  obtain ⟨j, rfl⟩ := Nat.exists_eq_add_one.mpr hk.1.1
  have hbefore : (step^[j] s).machine.isHalted = false := isHalted_before_stop hk hactive
  have hcount := s.executed_iterate_step j hbefore
  have hlast : step^[j + 1] s = (step^[j] s).step := Function.iterate_succ_apply' step j s
  have hmachine : (s.run (some n)).machine = ((step^[j] s).machine.step s.program).1 := by
    rw [hsettle, hlast, ← s.program_iterate_step j]
    rfl
  refine ⟨j + 1, hk, hsettle, ?_, ?_⟩
  · intro hrefuses
    have hstep := Machine.executed_step_of_refuses hrefuses
    rw [Nat.add_sub_cancel] at hstep ⊢
    rw [hmachine, hstep, hcount]
  · intro hexecutes
    have hstep := Machine.executed_step_of_not_refuses hbefore hexecutes
    rw [Machine.Executes, hcount] at hstep
    rw [hmachine]
    exact hstep

def returning : Session := ((new { seed := some 1 } default).performAll [.load "nop\nret".toList]).1

/-- The fault stops a run of five steps by its second one, which is not counted. -/
theorem run_returning :
    returning.machine.isHalted = false ∧ 1 ≤ 5 ∧
      IsLeast {k | 1 ≤ k ∧ returning.StopsAfter 5 k} 2 ∧
      returning.run (some 5) =
        { step^[2] returning with stop := some (returning.reasonAfter 5 2) } ∧
      (step^[1] returning).machine.Refuses returning.program ∧
      (returning.run (some 5)).machine.processor.executed =
        returning.machine.processor.executed + (2 - 1) := by
  have hactive : returning.machine.isHalted = false := by decide +kernel
  obtain ⟨k, hk, hrun, hrefuses, -⟩ :=
    run_eq_iterate_step { seed := some 1 } default _ (rfl : _ = returning) hactive
      (by decide : 1 ≤ 5)
  obtain rfl : k = 2 := by
    have hpos : 1 ≤ k := hk.1.1
    have hle : k ≤ 2 := hk.2 ⟨by decide, by decide +kernel⟩
    have hne : k ≠ 1 := by
      rintro rfl
      exact absurd hk.1.2 (by decide +kernel)
    omega
  have hfault : ((step^[1] returning).machine.step returning.program).2 =
      .faulted (.callStackUnderflow 1) := by decide +kernel
  exact ⟨hactive, by decide, hk, hrun, .inr ⟨_, hfault⟩, hrefuses (.inr ⟨_, hfault⟩)⟩

end Session
end ByteMachine
