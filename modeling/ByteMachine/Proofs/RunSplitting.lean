import ByteMachine.Proofs.ControlState

/-!
# Runs cut in two

A run holds the machine in the running status while it steps, which makes no difference to what a
machine at rest comes to. Repeated steps that came to their limit can be taken up again, and go on
as if they had not been cut; only a breakpoint where they are cut tells whether the steps are fresh.
So a run that did not come to its limit is the same as every longer run. One that did goes on as the
longer run does, unless it stopped at a breakpoint: there the longer run pauses, and a new run would
pass over it.
-/
namespace ByteMachine.Machine
variable (program : Program) (b : Breakpoints)

theorem repeatStep_setStatus (limit : Nat) (fresh : Bool) {m : Machine}
    (hactive : m.isHalted = false) {status : Status} (hstatus : status ≠ .halted) :
    repeatStep program b limit fresh (m.setStatus status) =
      (if (repeatStep program b limit fresh m).1.isHalted then
          (repeatStep program b limit fresh m).1
        else (repeatStep program b limit fresh m).1.setStatus status,
        (repeatStep program b limit fresh m).2) := by
  induction limit generalizing fresh m with
  | zero => simp [repeatStep, hactive]
  | succ limit ih =>
    have hstep := m.step_setStatus status program hactive hstatus
    have hpc : (m.setStatus status).processor.pc = m.processor.pc := rfl
    cases hpause : !fresh && b.contains m.processor.pc.toNat with
    | true =>
      rw [repeatStep_of_paused hpause, repeatStep_of_paused (hpc ▸ hpause),
        if_neg (by simp [hactive])]
    | false =>
      rcases m.step_counts program with ⟨hresult, hactive', -⟩ | ⟨hresult, hhalted, -⟩
      · rw [if_neg (by simp [hactive'])] at hstep
        rw [repeatStep_of_executed hpause hresult,
          repeatStep_of_executed (hpc ▸ hpause) (by rw [hstep, hresult]), hstep, ih false hactive']
      · rw [if_pos hhalted] at hstep
        rw [repeatStep_of_halted hpause hresult,
          repeatStep_of_halted (hpc ▸ hpause) (by rwa [hstep]), hstep, if_pos hhalted]

theorem atRest_repeatStep {m : Machine} (hrest : AtRest m) (limit : Nat) (fresh : Bool) :
    AtRest (repeatStep program b limit fresh m).1 :=
  repeatStep_preserves (fun _ h => h.step program) b limit fresh hrest

/-- Steps that came to their limit go on with the rest of a longer limit. Others are what they are
under every longer limit. -/
theorem repeatStep_add (n k : Nat) (fresh : Bool) (m : Machine) :
    repeatStep program b (n + k) fresh m =
      if (repeatStep program b n fresh m).2.1 = .limit then
        repeatStep program b k (fresh && n == 0) (repeatStep program b n fresh m).1
      else repeatStep program b n fresh m := by
  induction n generalizing fresh m with
  | zero => simp [repeatStep]
  | succ n ih =>
    rw [Nat.add_right_comm]
    cases hpause : !fresh && b.contains m.processor.pc.toNat with
    | true => simp [repeatStep_of_paused hpause]
    | false =>
      by_cases hresult : (m.step program).2 = .executed
      · rw [repeatStep_of_executed hpause hresult, repeatStep_of_executed hpause hresult, ih]
        simp
      · simp [repeatStep_of_halted hpause hresult]

variable {program b}

theorem setStatus_ready {m : Machine} (hrest : AtRest m) (hactive : m.isHalted = false) :
    m.setStatus .ready = m := by
  rcases hrest with hready | hhalted
  · rw [setStatus, ← hready]
  · rw [isHalted, Processor.isHalted, hhalted] at hactive
    cases hactive

/-- A run of a machine at rest repeats steps from where the machine is. -/
theorem run_eq_repeatStep {m : Machine} (hrest : AtRest m) (hactive : m.isHalted = false)
    (limit : Nat) {final : Machine} {reason : StopReason} {fault : Option Fault}
    (h : repeatStep program b limit true m = (final, reason, fault)) :
    m.run program b limit =
      (final, ⟨reason, final.processor.executed - m.processor.executed, fault⟩) := by
  have hfinal : AtRest final := by
    have hrest' := atRest_repeatStep program b hrest limit true
    rwa [h] at hrest'
  rw [run, if_neg (by simp [hactive]),
    repeatStep_setStatus program b limit true hactive (by decide), h]
  cases hhalted : final.isHalted with
  | true => simp [hhalted]
  | false =>
    have hready : (final.setStatus .running).setStatus .ready = final :=
      setStatus_ready hfinal hhalted
    have hrunning : (final.setStatus .running).isHalted = false := rfl
    have hexecuted : (final.setStatus .running).processor.executed = final.processor.executed := rfl
    simp [hready, hrunning, hexecuted]

/-- A breakpoint under the program counter matters to steps that are not fresh, if there are any. -/
theorem repeatStep_fresh_eq {limit : Nat} {m : Machine}
    (h : limit = 0 ∨ b.contains m.processor.pc.toNat = false) (fresh : Bool) :
    repeatStep program b limit fresh m = repeatStep program b limit true m := by
  cases limit with
  | zero => rfl
  | succ limit =>
    have hpc : b.contains m.processor.pc.toNat = false := h.resolve_left (Nat.succ_ne_zero limit)
    rw [repeatStep, repeatStep, hpc, Bool.and_false, Bool.and_false]

theorem run_of_halted {m : Machine} (hhalted : m.isHalted = true) (limit : Nat) :
    m.run program b limit = (m, ⟨.halted, 0, none⟩) := by
  rw [run, if_pos hhalted]

/-- The repeated steps of a run of a machine at rest, and what they have counted. -/
theorem repeatStep_of_run {m s : Machine} {r : RunResult} {n : Nat} (hrest : AtRest m)
    (hactive : m.isHalted = false) (hrun : m.run program b n = (s, r)) :
    repeatStep program b n true m = (s, r.reason, r.fault) ∧
      s.processor.executed = m.processor.executed + r.executed ∧
      (r.reason = .limit → s.isHalted = false ∧ r.executed = n) := by
  obtain ⟨k, hrepeated⟩ := repeated program b n true hactive
  generalize hsteps : repeatStep program b n true m = steps at hrepeated
  obtain ⟨final, reason, fault⟩ := steps
  rw [run_eq_repeatStep hrest hactive n hsteps, hrepeated.executed] at hrun
  obtain ⟨rfl, rfl⟩ := Prod.mk.inj hrun
  have hcount : m.processor.executed + k - m.processor.executed = k := Nat.add_sub_cancel_left ..
  refine ⟨rfl, by rw [hrepeated.executed, hcount], ?_⟩
  rintro rfl
  exact ⟨by simpa using hrepeated.halted, hcount.trans (hrepeated.full rfl)⟩

section Cut
variable {m s : Machine} {r : RunResult} {n k : Nat}

theorem isHalted_of_run_limit (hrun : m.run program b n = (s, r)) (hlimit : r.reason = .limit) :
    m.isHalted = false := by
  by_contra hhalted
  rw [run_of_halted (by simpa using hhalted)] at hrun
  obtain ⟨rfl, rfl⟩ := Prod.mk.inj hrun
  cases hlimit

theorem run_add_of_stopped (hrest : AtRest m) (hrun : m.run program b n = (s, r))
    (hstopped : r.reason ≠ .limit) : m.run program b (n + k) = (s, r) := by
  cases hhalted : m.isHalted with
  | true => rw [run_of_halted hhalted, ← hrun, run_of_halted hhalted]
  | false =>
    obtain ⟨hsteps, hcount, -⟩ := repeatStep_of_run hrest hhalted hrun
    have hadd := repeatStep_add program b n k true m
    rw [hsteps, if_neg hstopped] at hadd
    rw [run_eq_repeatStep hrest hhalted (n + k) hadd, hcount, Nat.add_sub_cancel_left]

/-- The steps of the longer run go on from where the shorter run came to its limit. -/
theorem repeatStep_add_of_limit (hrest : AtRest m) (hrun : m.run program b n = (s, r))
    (hlimit : r.reason = .limit) : repeatStep program b (n + k) true m =
      repeatStep program b k (n == 0) s := by
  obtain ⟨hsteps, -, -⟩ := repeatStep_of_run hrest (isHalted_of_run_limit hrun hlimit) hrun
  rw [repeatStep_add, hsteps, if_pos hlimit, Bool.true_and]

theorem run_add_of_limit (hrest : AtRest m) (hrun : m.run program b n = (s, r))
    (hlimit : r.reason = .limit)
    (hcut : n = 0 ∨ k = 0 ∨ b.contains s.processor.pc.toNat = false) :
    m.run program b (n + k) = ((s.run program b k).1,
      { (s.run program b k).2 with executed := r.executed + (s.run program b k).2.executed }) := by
  have hactive := isHalted_of_run_limit hrun hlimit
  obtain ⟨hsteps, hcount, hfull⟩ := repeatStep_of_run hrest hactive hrun
  have hrest' : AtRest s := by
    have hfinal := atRest_repeatStep program b hrest n true
    rwa [hsteps] at hfinal
  obtain ⟨⟨t, r'⟩, hrun'⟩ : ∃ x, s.run program b k = x := ⟨_, rfl⟩
  obtain ⟨hsteps', hcount', -⟩ := repeatStep_of_run hrest' (hfull hlimit).1 hrun'
  have hlonger : repeatStep program b (n + k) true m = (t, r'.reason, r'.fault) := by
    rw [repeatStep_add_of_limit hrest hrun hlimit, ← hsteps']
    rcases hcut with rfl | hcut
    · rfl
    · exact repeatStep_fresh_eq hcut _
  have hexecuted : t.processor.executed - m.processor.executed = r.executed + r'.executed := by
    omega
  rw [run_eq_repeatStep hrest hactive (n + k) hlonger, hexecuted, hrun']

theorem run_add_of_breakpoint (hrest : AtRest m) (hrun : m.run program b n = (s, r))
    (hlimit : r.reason = .limit) (hn : 0 < n) (hk : 0 < k)
    (hcut : b.contains s.processor.pc.toNat = true) :
    m.run program b (n + k) = (s, ⟨.breakpoint, n, none⟩) := by
  have hactive := isHalted_of_run_limit hrun hlimit
  obtain ⟨-, hcount, hfull⟩ := repeatStep_of_run hrest hactive hrun
  have hlonger : repeatStep program b (n + k) true m = (s, .breakpoint, none) := by
    obtain ⟨k, rfl⟩ := Nat.exists_eq_add_one.mpr hk
    rw [repeatStep_add_of_limit hrest hrun hlimit]
    exact repeatStep_of_paused (by simp [hcut, hn.ne']) k
  rw [run_eq_repeatStep hrest hactive (n + k) hlonger, hcount, Nat.add_sub_cancel_left,
    (hfull hlimit).2]

/-- A run in two parts, with `s` where the first one stops. If the first run has not come to its
limit, the longer run is the same. If it has, a second run ends as the longer run does, unless
neither part is empty and `s` is at a breakpoint: the longer run stops there. -/
theorem run_add (hrest : AtRest m) (hrun : m.run program b n = (s, r)) :
    (r.reason ≠ .limit → m.run program b (n + k) = (s, r)) ∧
      (r.reason = .limit → n = 0 ∨ k = 0 ∨ b.contains s.processor.pc.toNat = false →
        m.run program b (n + k) = ((s.run program b k).1,
          { (s.run program b k).2 with
            executed := r.executed + (s.run program b k).2.executed })) ∧
      (r.reason = .limit → 0 < n → 0 < k → b.contains s.processor.pc.toNat = true →
        m.run program b (n + k) = (s, ⟨.breakpoint, n, none⟩)) :=
  ⟨run_add_of_stopped hrest hrun, run_add_of_limit hrest hrun, run_add_of_breakpoint hrest hrun⟩

end Cut

/-- A run of two over three instructions, cut at a breakpoint on the second. -/
theorem run_add_nops :
    let m := new (.new (some 1) default)
    AtRest m ∧ ∃ s r, m.run ⟨#[0, 0, 0x1000], #[0, 1, 2]⟩ ⟨[1]⟩ 1 = (s, r) ∧
      r.reason = .limit ∧ Breakpoints.contains ⟨[1]⟩ s.processor.pc.toNat = true ∧
      m.run ⟨#[0, 0, 0x1000], #[0, 1, 2]⟩ ⟨[1]⟩ (1 + 1) = (s, ⟨.breakpoint, 1, none⟩) := by
  intro m
  have hrest : AtRest m := .inl rfl
  have hrun := run_add hrest
    (rfl : m.run ⟨#[0, 0, 0x1000], #[0, 1, 2]⟩ ⟨[1]⟩ 1 = (_, _)) (k := 1)
  exact ⟨hrest, _, _, rfl, by decide +kernel, by decide +kernel,
    hrun.2.2 (by decide +kernel) (by decide) (by decide) (by decide +kernel)⟩

end ByteMachine.Machine
