import ByteMachine.Proofs.RunSteps

/-!
# Why a machine has halted

Whatever is done to a session, its fault, its stop reason, the status and the program counter of its
machine agree. Without a fault the machine has halted at the end of the program or on `hlt`; a fault
names the program counter and is true of the word and the call stack there. A step keeps this, so
steps do, and a run is steps but for the reason that it gives.
-/
namespace ByteMachine

def WordIs (program : Program) (address : Nat) (m : Mnemonic) : Prop :=
  ∃ word i, program.word? address = some word ∧ Instruction.decode word = .ok i ∧ i.mnemonic = m

def Fault.TrueOf (program : Program) (p : Processor) : Fault → Prop
  | illegalInstruction pc word => pc = p.pc ∧ program.word? p.pc.toNat = some word ∧
      ∃ e, Instruction.decode word = .error e
  | callStackOverflow pc => pc = p.pc ∧ WordIs program p.pc.toNat .cal ∧ p.calls.length = 16
  | callStackUnderflow pc => pc = p.pc ∧ WordIs program p.pc.toNat .ret ∧ p.calls = []

/-- The machine has halted for a reason that the program and the recorded fault show. -/
structure HaltShown (program : Program) (m : Machine) (fault : Option Fault) : Prop where
  halted_of_fault : fault ≠ none → m.isHalted = true
  ended : m.isHalted = true → fault = none →
    program.size ≤ m.processor.pc.toNat ∨ WordIs program m.processor.pc.toNat .hlt
  faulted (f : Fault) : fault = some f → f.TrueOf program m.processor

structure Explained (s : Session) : Prop extends HaltShown s.program s.machine s.fault where
  halted_iff : s.snapshot.halted = true ↔ s.snapshot.stopReason = some .halted

namespace Machine

/-- Only `hlt` halts the machine, and it stays where it is. -/
theorem halts_of_execute {m m' : Machine} {i : Instruction} (hactive : m.isHalted = false)
    (hexecute : m.execute i = .ok m') (hhalted : m'.isHalted = true) :
    i.mnemonic = .hlt ∧ m'.processor.pc = m.processor.pc := by
  have hne : m'.processor.status ≠ m.processor.status := by
    intro hstatus
    rw [isHalted, Processor.isHalted, hstatus] at hhalted
    exact absurd hhalted (by simpa [isHalted, Processor.isHalted] using hactive)
  cases (execute_effect hexecute).2 with
  | next hpc hcalls hstatus => exact absurd hstatus hne
  | stay hi hpc hcalls hstatus => exact ⟨hi, hpc⟩
  | jump hi hpc hcalls hstatus => exact absurd hstatus hne
  | call hi hpc hdepth hcalls hstatus => exact absurd hstatus hne
  | leave hi hcalls hstatus => exact absurd hstatus hne

end Machine

theorem HaltShown.fault_eq_none {program : Program} {m : Machine} {fault : Option Fault}
    (h : HaltShown program m fault) (hactive : m.isHalted = false) : fault = none := by
  by_contra hfault
  rw [h.halted_of_fault hfault] at hactive
  cases hactive

/-- An active machine has nothing to explain. -/
theorem HaltShown.of_active {program : Program} {m : Machine} (hactive : m.isHalted = false) :
    HaltShown program m none where
  halted_of_fault h := absurd rfl h
  ended hhalted := by simp [hactive] at hhalted
  faulted f hf := by cases hf

theorem HaltShown.of_fault {program : Program} {m : Machine} {f : Fault}
    (hhalted : m.isHalted = true) (hf : f.TrueOf program m.processor) :
    HaltShown program m (some f) where
  halted_of_fault _ := hhalted
  ended _ hnone := by cases hnone
  faulted f' hf' := by
    obtain rfl := Option.some.inj hf'
    exact hf

theorem HaltShown.of_end {program : Program} {m : Machine}
    (h : program.size ≤ m.processor.pc.toNat ∨ WordIs program m.processor.pc.toNat .hlt)
    (hhalted : m.isHalted = true) : HaltShown program m none where
  halted_of_fault _ := hhalted
  ended _ _ := h
  faulted f hf := by cases hf

theorem HaltShown.step {program : Program} {m : Machine} {fault : Option Fault}
    (h : HaltShown program m fault) (hcontrolled : Controlled program m.processor) :
    HaltShown program (m.step program).1 ((m.step program).2.fault?.or fault) := by
  have hstep := m.stepped program
  generalize m.step program = r at hstep
  cases hstep with
  | idle hhalted => exact h
  | ended hactive hend =>
    rw [h.fault_eq_none hactive]
    exact .of_end (.inl (Array.getElem?_eq_none_iff.mp hend)) rfl
  | illegal hactive word e hword hdecode => exact .of_fault rfl ⟨rfl, hword, e, hdecode⟩
  | refused hactive word i f hword hdecode hexecute =>
    rcases (Machine.fault_of_execute hexecute).2 with ⟨hi, hdepth, rfl⟩ | ⟨hi, hcalls, rfl⟩
    · have hfull : m.processor.calls.length = 16 := Nat.le_antisymm hcontrolled.depth_le hdepth
      exact .of_fault rfl ⟨rfl, ⟨word, i, hword, hdecode, hi⟩, hfull⟩
    · exact .of_fault rfl ⟨rfl, ⟨word, i, hword, hdecode, hi⟩, hcalls⟩
  | executed hactive word i m' hword hdecode hexecute =>
    rw [h.fault_eq_none hactive]
    cases hhalted : m'.isHalted with
    | true =>
      obtain ⟨hi, hpc⟩ := Machine.halts_of_execute hactive hexecute hhalted
      refine .of_end (.inr ?_) hhalted
      have hcount : (m'.count m.processor.pc).processor.pc = m.processor.pc := hpc
      rw [hcount]
      exact ⟨word, i, hword, hdecode, hi⟩
    | false => exact .of_active hhalted

theorem Explained.step {s : Session} (h : Explained s) (hsound : Sound s) : Explained s.step := by
  have hshown := h.toHaltShown.step hsound.controlled
  rw [← s.fault_step] at hshown
  refine ⟨hshown, ?_⟩
  have hstop : s.step.snapshot.stopReason =
      if s.step.snapshot.halted then some .halted else none := rfl
  rw [hstop]
  split <;> simp_all

theorem explained_iterate_step {s : Session} (h : Explained s) (hsound : Sound s) (k : Nat) :
    Explained (Session.step^[k] s) :=
  -- an overflow is explained by a call stack in order, so both are carried along
  (Function.Iterate.rec (fun s => Explained s ∧ Sound s) ⟨h, hsound⟩
    (fun _ hs => ⟨hs.1.step hs.2, hs.2.perform .step⟩) k).1

theorem Explained.run {s : Session} (h : Explained s) (hsound : Sound s) (limit : Option Nat) :
    Explained (s.run limit) := by
  obtain ⟨k, reason, hrun, hreason⟩ := Session.exists_run_eq hsound.atRest limit
  have hsteps := explained_iterate_step h hsound k
  rw [hrun]
  refine ⟨⟨hsteps.halted_of_fault, hsteps.ended, hsteps.faulted⟩, ?_⟩
  exact hreason.symm.trans (Option.some_inj ..).symm

theorem Explained.install (s : Session) (program : Program) : Explained (s.install program) := by
  refine ⟨.of_active rfl, ?_⟩
  have hhalted : (s.install program).snapshot.halted = false := rfl
  have hstop : (s.install program).snapshot.stopReason = none := rfl
  simp [hhalted, hstop]

theorem Explained.perform {s : Session} (h : Explained s) (hsound : Sound s) (op : Operation) :
    Explained (s.perform op).1 := by
  cases op with
  | load source =>
    change Explained (s.load source).1
    unfold Session.load
    split
    · exact .install s _
    · exact h
  | loadImage image =>
    change Explained (s.loadImage image).1
    unfold Session.loadImage
    split
    · exact .install s _
    · exact h
  | step => exact h.step hsound
  | run limit => exact h.run hsound limit
  | reset => exact .install s s.program
  | state => exact h
  | listing => exact h
  | breakpoint address =>
    change Explained (s.breakpoint address).1
    unfold Session.breakpoint
    split
    · exact ⟨h.toHaltShown, h.halted_iff⟩
    · exact h
  | input value => exact ⟨⟨h.halted_of_fault, h.ended, h.faulted⟩, h.halted_iff⟩

/-- After any operations on a new session its halt is explained. -/
theorem explained_performAll (config : Config) (entropy : Entropy) (ops : List Operation) :
    Explained ((Session.new config entropy).performAll ops).1 := by
  have hnew : Explained (Session.new config entropy) :=
    ⟨.of_active rfl, iff_of_false Bool.false_ne_true (Option.some_ne_none _).symm⟩
  exact (Session.performAll_preserves (P := fun s => Explained s ∧ Sound s)
    (fun _ op h => ⟨h.1.perform h.2 op, h.2.perform op⟩) ⟨hnew, .new config entropy⟩ ops).1

end ByteMachine
