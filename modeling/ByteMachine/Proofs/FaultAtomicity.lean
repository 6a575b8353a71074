import ByteMachine.Proofs.CallReturns

/-!
# Faults are atomic

A step that executes no instruction, at the end of the program or by a fault, leaves everything as
it was but the status. So the machine that a faulting run leaves is known from the steps before the
fault: there are as many of them as the run has counted, each of them executed an instruction, and
the fault halts the machine that they leave.
-/
namespace ByteMachine.Machine
variable {program : Program} {b : Breakpoints} {m final : Machine} {fault : Fault}

/-- A machine that faults after a number of instructions, and the machine that this leaves. -/
structure FaultsAfter (program : Program) (m final : Machine) (k : Nat) (fault : Fault) : Prop where
  executed (j : Nat) : j < k → ((after program j m).step program).2 = .executed
  faulted : ((after program k m).step program).2 = .faulted fault
  halted : final = (after program k m).setStatus .halted

/-- A step that executes no instruction does nothing but halt the machine. -/
theorem step_of_refuses (hactive : m.isHalted = false) (h : m.Refuses program) :
    (m.step program).1 = m.setStatus .halted := by
  unfold Refuses at h
  have hstep := m.stepped program
  generalize m.step program = r at hstep h
  cases hstep with
  | idle hhalted => simp [hactive] at hhalted
  | ended _ hend => rfl
  | illegal _ word e hword hdecode => rfl
  | refused _ word i fault hword hdecode hexecute => rfl
  | executed _ word i m' hword hdecode hexecute =>
    rcases h with hend | ⟨fault, hfault⟩
    · rw [hword] at hend
      cases hend
    · split at hfault <;> cases hfault

theorem FaultsAfter.zero (hactive : m.isHalted = false)
    (hfault : (m.step program).2 = .faulted fault) :
    FaultsAfter program m (m.step program).1 0 fault where
  executed _ hj := absurd hj (Nat.not_lt_zero _)
  faulted := hfault
  halted := step_of_refuses hactive (.inr ⟨fault, hfault⟩)

theorem FaultsAfter.succ {k : Nat} (hresult : (m.step program).2 = .executed)
    (h : FaultsAfter program (m.step program).1 final k fault) :
    FaultsAfter program m final (k + 1) fault := by
  have hshift (j : Nat) : after program (j + 1) m = after program j (m.step program).1 :=
    Function.iterate_succ_apply _ j m
  refine ⟨?_, ?_, ?_⟩
  · intro j hj
    cases j with
    | zero => exact hresult
    | succ j =>
      rw [hshift]
      exact h.executed j (by omega)
  · rw [hshift]
    exact h.faulted
  · rw [hshift]
    exact h.halted

theorem executed_after {k : Nat}
    (h : ∀ j < k, ((after program j m).step program).2 = .executed) :
    (after program k m).processor.executed = m.processor.executed + k := by
  induction k with
  | zero => rfl
  | succ k ih =>
    rw [after_succ]
    rcases (after program k m).step_counts program with ⟨-, -, hcount⟩ | ⟨hresult, -⟩
    · rw [hcount, ih fun j hj => h j (by omega), Nat.add_assoc]
    · exact absurd (h k (Nat.lt_succ_self k)) hresult

/-- Repeated steps that stop with a fault. The induction is on the limit; the machine is active at
each of the steps, which the fault needs to change nothing but the status. -/
theorem faultsAfter_repeatStep {limit : Nat} {fresh : Bool} {reason : StopReason}
    (hactive : m.isHalted = false)
    (h : repeatStep program b limit fresh m = (final, reason, some fault)) :
    ∃ k, FaultsAfter program m final k fault := by
  induction limit generalizing fresh m with
  | zero => cases h
  | succ limit ih =>
    cases hpause : !fresh && b.contains m.processor.pc.toNat with
    | true =>
      rw [repeatStep_of_paused hpause] at h
      cases h
    | false =>
      rcases m.step_counts program with ⟨hresult, hactive', -⟩ | ⟨hresult, -⟩
      · rw [repeatStep_of_executed hpause hresult] at h
        obtain ⟨k, hk⟩ := ih hactive' h
        exact ⟨k + 1, hk.succ hresult⟩
      · rw [repeatStep_of_halted hpause hresult] at h
        obtain ⟨rfl, hrest⟩ := Prod.mk.inj h
        have hfault : (m.step program).2 = .faulted fault := by
          generalize (m.step program).2 = result at hrest
          cases result with
          | executed | halted => cases hrest
          | faulted f =>
            obtain rfl : f = fault := Option.some.inj (Prod.mk.inj hrest).2
            rfl
        exact ⟨0, .zero hactive hfault⟩

theorem isHalted_of_run_fault {limit : Nat} {result : RunResult}
    (hrun : m.run program b limit = (final, result)) (hfault : result.fault = some fault) :
    m.isHalted = false := by
  by_contra hhalted
  rw [run_of_halted (by simpa using hhalted)] at hrun
  obtain ⟨rfl, rfl⟩ := Prod.mk.inj hrun
  cases hfault

theorem faultsAfter_run {limit : Nat} {result : RunResult}
    (hrun : m.run program b limit = (final, result)) (hfault : result.fault = some fault) :
    FaultsAfter program m final result.executed fault := by
  have hactive := isHalted_of_run_fault hrun hfault
  rw [run, if_neg (by simp [hactive]),
    repeatStep_setStatus program b limit true hactive (by decide)] at hrun
  obtain ⟨⟨stopped, reason, fault'⟩, hsteps⟩ : ∃ r, repeatStep program b limit true m = r :=
    ⟨_, rfl⟩
  rw [hsteps] at hrun
  obtain ⟨hfinal, rfl⟩ := Prod.mk.inj hrun
  obtain rfl : fault' = some fault := hfault
  obtain ⟨k, hk⟩ := faultsAfter_repeatStep hactive hsteps
  have hhalted : stopped.isHalted = true := by
    rw [hk.halted]
    rfl
  have hcount : stopped.processor.executed = m.processor.executed + k := by
    rw [hk.halted]
    exact executed_after hk.executed
  simp only [hhalted, if_true] at hfinal ⊢
  rw [← hfinal, hcount, Nat.add_sub_cancel_left]
  exact hk

/-- Faults are atomic. A step of an active machine that refuses leaves everything but the status as
it was, and a run that ends with a fault leaves the machine that its executed steps lead to, halted.
-/
theorem faults_atomic (program : Program) (m : Machine) :
    (m.isHalted = false → m.Refuses program → (m.step program).1 =
      { m with processor := { m.processor with status := .halted } }) ∧
      ∀ b limit final result fault, m.run program b limit = (final, result) →
        result.fault = some fault → FaultsAfter program m final result.executed fault :=
  ⟨step_of_refuses, fun _ _ _ _ _ hrun hfault => faultsAfter_run hrun hfault⟩

def returnAtOnce : Program := ⟨#[0, 0xD000], #[0, 1]⟩

/-- One instruction is executed, and the fault of the other changes nothing but the status. -/
theorem faults_atomic_returnAtOnce :
    let m := new (.new (some 1) default)
    let next := after returnAtOnce 1 m
    m.isHalted = false ∧ ∃ final result, m.run returnAtOnce {} 5 = (final, result) ∧
      result.executed = 1 ∧
      FaultsAfter returnAtOnce m final result.executed (.callStackUnderflow 1) ∧
      next.Refuses returnAtOnce ∧ (next.step returnAtOnce).1 = next.setStatus .halted := by
  intro m next
  have hfault : (next.step returnAtOnce).2 = .faulted (.callStackUnderflow 1) := by
    decide +kernel
  have hrefuses : next.Refuses returnAtOnce := .inr ⟨_, hfault⟩
  have hactive : next.isHalted = false := by decide +kernel
  exact ⟨rfl, _, _, rfl, by decide +kernel,
    (faults_atomic returnAtOnce m).2 {} 5 _ _ _ rfl (by decide +kernel), hrefuses,
    (faults_atomic returnAtOnce _).1 hactive hrefuses⟩

end ByteMachine.Machine
