import ByteMachine.Proofs.HaltReasons
import ByteMachine.Proofs.Loads

/-!
# Sessions that have halted

Once its machine has halted a session shows the same snapshot whatever is done to it, until it is
reset or a load succeeds. Steps and runs find the machine halted and give the stop reason that is
there already; an input and a breakpoint are kept, but no snapshot shows them.
-/
namespace ByteMachine
namespace Session

def adjust (s : Session) (b : Breakpoints) (value : UInt8) : Session :=
  { s with
    breakpoints := b
    machine := { s.machine with memory := s.machine.memory.setController value } }

theorem adjust_self (s : Session) :
    s.adjust s.breakpoints s.machine.memory.devices.controller = s := rfl

theorem snapshot_adjust (s : Session) (b : Breakpoints) (value : UInt8) :
    (s.adjust b value).snapshot = s.snapshot := rfl

/-- A snapshot that an operation answers with shows the session after it. -/
theorem eq_snapshot_of_perform {s : Session} {op : Operation} {snapshot : Snapshot}
    (h : (s.perform op).2 = .state snapshot) : snapshot = (s.perform op).1.snapshot := by
  cases op with
  | load source | loadImage image | listing | breakpoint address => cases h
  | step | run limit | reset | state | input value => exact (Response.state.inj h).symm

structure Stopped (s : Session) : Prop where
  halted : s.machine.isHalted = true
  stop : s.stop = some .halted

section Stopped
variable {s : Session}

theorem Stopped.step (h : s.Stopped) : s.step = s := by
  have hidle : s.machine.step s.program = (s.machine, .halted) := (Stepped.idle h.halted).eq
  unfold Session.step
  simp only [hidle, h.halted, if_true, ← h.stop]

theorem Stopped.run (h : s.Stopped) (limit : Option Nat) : s.run limit = s := by
  unfold Session.run
  simp only [Machine.run_of_halted h.halted, Option.none_or, ← h.stop]

theorem Stopped.adjust (h : s.Stopped) (b : Breakpoints) (value : UInt8) :
    (s.adjust b value).Stopped :=
  ⟨h.halted, h.stop⟩

/-- Without a reset or a load that succeeds, only the breakpoints and the controller sample of the
session can change. -/
theorem Stopped.perform (h : s.Stopped) {op : Operation} (hreset : op ≠ .reset)
    (hload : (s.perform op).2.accepts = false) :
    ∃ b value, (s.perform op).1 = s.adjust b value := by
  have hsame {t : Session} (ht : t = s) : ∃ b value, t = s.adjust b value :=
    ⟨s.breakpoints, s.machine.memory.devices.controller, ht.trans s.adjust_self.symm⟩
  cases op with
  | load source =>
    have hrejects : (s.perform (.load source)).2.rejects = true := congrArg not hload
    exact hsame (perform_of_rejects hrejects)
  | loadImage image =>
    have hrejects : (s.perform (.loadImage image)).2.rejects = true := congrArg not hload
    exact hsame (perform_of_rejects hrejects)
  | step => exact hsame h.step
  | run limit => exact hsame (h.run limit)
  | reset => exact absurd rfl hreset
  | state | listing => exact hsame rfl
  | breakpoint address =>
    simp only [Session.perform, breakpoint]
    split
    · exact ⟨_, s.machine.memory.devices.controller, rfl⟩
    · exact hsame rfl
  | input value => exact ⟨s.breakpoints, value, rfl⟩

theorem Stopped.performAll (h : s.Stopped) {ops : List Operation} (hreset : ∀ op ∈ ops, op ≠ .reset)
    (hload : ∀ r ∈ (s.performAll ops).2, r.accepts = false) :
    (∃ b value, (s.performAll ops).1 = s.adjust b value) ∧
      ∀ snapshot, .state snapshot ∈ (s.performAll ops).2 → snapshot = s.snapshot := by
  induction ops generalizing s with
  | nil => exact ⟨⟨_, _, s.adjust_self.symm⟩, fun _ hmem => by cases hmem⟩
  | cons op ops ih =>
    rw [performAll_cons] at hload ⊢
    obtain ⟨hop, hreset⟩ := List.forall_mem_cons.mp hreset
    obtain ⟨hfirst, hload⟩ := List.forall_mem_cons.mp hload
    obtain ⟨b, value, hnext⟩ := h.perform hop hfirst
    rw [hnext] at hload ⊢
    obtain ⟨⟨b', value', hfinal⟩, hsnapshots⟩ := ih (h.adjust b value) hreset hload
    refine ⟨⟨b', value', hfinal⟩, fun snapshot hmem => ?_⟩
    rcases List.mem_cons.mp hmem with hresponse | hmem
    · rw [eq_snapshot_of_perform hresponse.symm, hnext, snapshot_adjust]
    · exact hsnapshots snapshot hmem

theorem Stopped.isHalted_perform_iff (h : s.Stopped) (op : Operation) :
    (s.perform op).1.machine.isHalted = false ↔
      op = .reset ∨ (s.perform op).2.accepts = true := by
  constructor
  · intro hactive
    by_contra hkeeps
    rw [not_or, Bool.not_eq_true] at hkeeps
    obtain ⟨b, value, hnext⟩ := h.perform hkeeps.1 hkeeps.2
    rw [hnext, (h.adjust b value).halted] at hactive
    cases hactive
  · rintro (rfl | haccepts)
    · rfl
    · obtain ⟨p, hp⟩ := exists_install_of_accepts haccepts
      rw [(hp s).1]
      rfl

end Stopped

/-- The session `t` is halted as `s` was, with the same memory and the same random bytes to come,
and the responses hold no other snapshot than that of `s`. -/
structure HaltKept (s t : Session) (responses : List Response) : Prop where
  snapshots (snapshot : Snapshot) : .state snapshot ∈ responses → snapshot = s.snapshot
  snapshot : t.snapshot = s.snapshot
  cells : t.machine.memory.cells = s.machine.memory.cells
  generator : t.machine.memory.devices.generator = s.machine.memory.devices.generator
  halted : t.machine.isHalted = true

/-- A session that has halted shows the same until it is reset or a load succeeds, and either of the
two makes it active. -/
theorem halt_kept (config : Config) (entropy : Entropy) (history : List Operation) {s : Session}
    (hs : ((new config entropy).performAll history).1 = s) (hhalted : s.machine.isHalted = true) :
    (∀ ops, (∀ op ∈ ops, op ≠ .reset) → (∀ r ∈ (s.performAll ops).2, r.accepts = false) →
      HaltKept s (s.performAll ops).1 (s.performAll ops).2) ∧
    ∀ op, (s.perform op).1.machine.isHalted = false ↔
      op = .reset ∨ (s.perform op).2.accepts = true := by
  have hstop : s.stop = some .halted :=
    hs ▸ (explained_performAll config entropy history).halted_iff.mp (hs ▸ hhalted)
  have hstopped : s.Stopped := ⟨hhalted, hstop⟩
  refine ⟨fun ops hreset hload => ?_, hstopped.isHalted_perform_iff⟩
  obtain ⟨⟨b, value, hfinal⟩, hsnapshots⟩ := hstopped.performAll hreset hload
  rw [hfinal]
  exact ⟨hsnapshots, rfl, rfl, rfl, hhalted⟩

/-- A session that has drawn a random byte, stored it and returned without a call. -/
def underflowed : Session :=
  ((new { seed := some 7 } default).performAll
    [.load "ldi r1 254\nlod r2 r1\nstr r2 r0 4\nret".toList, .run none]).1

def probes : List Operation :=
  [.step, .run (some 0), .run none, .load "frob".toList, .loadImage "2".toList, .input 9,
    .breakpoint 2, .listing, .state]

theorem halt_kept_underflowed :
    underflowed.machine.isHalted = true ∧ underflowed.fault = some (.callStackUnderflow 3) ∧
      underflowed.machine.memory.devices.generator.drawn = 1 ∧
      (∀ op ∈ probes, op ≠ .reset) ∧
      (∀ r ∈ (underflowed.performAll probes).2, r.accepts = false) ∧
      HaltKept underflowed (underflowed.performAll probes).1 (underflowed.performAll probes).2 ∧
      ∀ op, (underflowed.perform op).1.machine.isHalted = false ↔
        op = .reset ∨ (underflowed.perform op).2.accepts = true := by
  have hhalted : underflowed.machine.isHalted = true := by decide +kernel
  have hreset : ∀ op ∈ probes, op ≠ .reset := by decide
  have hload : ∀ r ∈ (underflowed.performAll probes).2, r.accepts = false := by decide +kernel
  obtain ⟨hkept, hleave⟩ := halt_kept { seed := some 7 } default _ (rfl : _ = underflowed) hhalted
  exact ⟨hhalted, by decide +kernel, by decide +kernel, hreset, hload, hkept probes hreset hload,
    hleave⟩

end Session
end ByteMachine
