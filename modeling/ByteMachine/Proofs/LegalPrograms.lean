import ByteMachine.Proofs.HaltReasons
import ByteMachine.Proofs.ListingRoundTrip
import ByteMachine.Proofs.Loads

/-!
# Programs without illegal words

All words of an assembled program are instructions. While such a program stays loaded no step and no
run comes to an illegal instruction, wherever jumps and returns lead, since outside of the program
the machine halts without a fault; and every row of the listing is the text of an instruction.
-/
namespace ByteMachine

def Program.Legal (p : Program) : Prop := ∀ w ∈ p.words, ∃ i, Instruction.decode w = .ok i

def Fault.IsIllegal : Fault → Prop
  | illegalInstruction _ _ => True
  | callStackOverflow _ | callStackUnderflow _ => False

theorem legal_of_assemble {source : Text} {p : Program} (h : assemble source = .ok p) :
    p.Legal := by
  obtain ⟨t, rows, rfl, -, -, hrows⟩ := codes_of_assemble h
  intro w hw
  obtain ⟨row, hrow, rfl⟩ : ∃ row ∈ rows, row.1 = w := by simpa [Program.ofList] using hw
  obtain ⟨c, -, -, hencode⟩ := exists_encodesTo_of_mem hrows hrow
  obtain ⟨i, hdecode, -⟩ := encodeLine_functional hencode
  exact ⟨i, hdecode⟩

/-- The text of an instruction is not the one that stands for an illegal word. -/
theorem wordText_ne_invalid {w : UInt16} {i : Instruction} (h : Instruction.decode w = .ok i) :
    wordText w ≠ "invalid opcode".toList := by
  have hname : i.mnemonic.name.toList ≠ "invalid".toList := by
    cases i.mnemonic <;> decide
  have hhead : (wordText w).splitHead.1 = i.mnemonic.name.toList := by
    rw [wordText_of_ok h]
    exact (splitHead_spaced (written_mnemonic i.mnemonic)
      (written_tokens i.mnemonic i.operands)).1
  intro htext
  rw [htext] at hhead
  exact hname hhead.symm

namespace Program.Legal
variable {p : Program}

theorem listing (h : p.Legal) (pc : Nat) (b : Breakpoints) :
    ∀ row ∈ p.listing pc b, row.text ≠ "invalid opcode".toList := by
  intro row hrow
  obtain ⟨⟨w, address⟩, hmem, rfl⟩ := List.mem_map.mp hrow
  obtain ⟨i, hdecode⟩ := h w (Array.mem_toList_iff.mp (List.fst_mem_of_mem_zipIdx hmem))
  exact wordText_ne_invalid hdecode

theorem step (h : p.Legal) (m : Machine) {f : Fault} (hf : (m.step p).2.fault? = some f) :
    ¬ f.IsIllegal := by
  have hstep := m.stepped p
  generalize m.step p = r at hstep hf
  cases hstep with
  | idle hhalted => cases hf
  | ended hactive hend => cases hf
  | illegal hactive word e hword hdecode =>
    obtain ⟨i, hok⟩ := h word (Array.mem_of_getElem? hword)
    rw [hdecode] at hok
    cases hok
  | refused hactive word i fault hword hdecode hexecute =>
    obtain rfl := Option.some.inj hf
    rcases (Machine.fault_of_execute hexecute).2 with ⟨-, -, rfl⟩ | ⟨-, -, rfl⟩
    · exact id
    · exact id
  | executed hactive word i m' hword hdecode hexecute =>
    split at hf <;> cases hf

theorem repeatStep (h : p.Legal) (b : Breakpoints) (limit : Nat) (fresh : Bool) (m : Machine)
    {f : Fault} (hf : (Machine.repeatStep p b limit fresh m).2.2 = some f) : ¬ f.IsIllegal := by
  induction limit generalizing fresh m with
  | zero => cases hf
  | succ limit ih =>
    cases hpause : !fresh && b.contains m.processor.pc.toNat with
    | true =>
      rw [Machine.repeatStep_of_paused hpause] at hf
      cases hf
    | false =>
      by_cases hresult : (m.step p).2 = .executed
      · rw [Machine.repeatStep_of_executed hpause hresult] at hf
        exact ih false _ hf
      · rw [Machine.repeatStep_of_halted hpause hresult] at hf
        exact h.step m hf

theorem run (h : p.Legal) (b : Breakpoints) (limit : Nat) (m : Machine) {f : Fault}
    (hf : (m.run p b limit).2.fault = some f) : ¬ f.IsIllegal := by
  unfold Machine.run at hf
  split at hf
  · cases hf
  · exact h.repeatStep b limit true _ hf

end Program.Legal

namespace Session

structure Lawful (s : Session) : Prop where
  legal : s.program.Legal
  fault (f : Fault) : s.fault = some f → ¬ f.IsIllegal

theorem Lawful.install (s : Session) {p : Program} (h : p.Legal) : Lawful (s.install p) :=
  ⟨h, fun _ hf => by cases hf⟩

theorem Lawful.step {s : Session} (h : Lawful s) : Lawful s.step := by
  refine ⟨h.legal, fun f hf => ?_⟩
  rw [fault_step] at hf
  cases hresult : (s.machine.step s.program).2.fault? with
  | none =>
    rw [hresult] at hf
    exact h.fault f hf
  | some f' =>
    rw [hresult] at hf
    obtain rfl := Option.some.inj hf
    exact h.legal.step s.machine hresult

theorem Lawful.run {s : Session} (h : Lawful s) (limit : Option Nat) : Lawful (s.run limit) := by
  refine ⟨h.legal, fun f hf => ?_⟩
  have hor : (s.run limit).fault = (s.machine.run s.program s.breakpoints
      (limit.getD s.config.runLimit)).2.fault.or s.fault := rfl
  rw [hor] at hf
  rcases Option.or_eq_some_iff.mp hf with hrun | ⟨-, hbefore⟩
  · exact h.legal.run _ _ _ hrun
  · exact h.fault f hbefore

/-- Only a load that succeeds puts another program in the place of a legal one. -/
theorem Lawful.perform {s : Session} (h : Lawful s) {op : Operation}
    (hop : (s.perform op).2.accepts = false) : Lawful (s.perform op).1 := by
  cases op with
  | load source =>
    have hrejects : (s.perform (.load source)).2.rejects = true := congrArg not hop
    rwa [perform_of_rejects hrejects]
  | loadImage image =>
    have hrejects : (s.perform (.loadImage image)).2.rejects = true := congrArg not hop
    rwa [perform_of_rejects hrejects]
  | step => exact h.step
  | run limit => exact h.run limit
  | reset => exact .install s h.legal
  | state => exact h
  | listing => exact h
  | breakpoint address =>
    simp only [Session.perform, breakpoint]
    split
    · exact ⟨h.legal, h.fault⟩
    · exact h
  | input value => exact ⟨h.legal, h.fault⟩

theorem Lawful.performAll {s : Session} (h : Lawful s) {ops : List Operation}
    (hops : ∀ r ∈ (s.performAll ops).2, r.accepts = false) : Lawful (s.performAll ops).1 := by
  induction ops generalizing s with
  | nil => exact h
  | cons op ops ih =>
    obtain ⟨hop, hrest⟩ := List.forall_mem_cons.mp hops
    exact ih (h.perform hop) hrest

/-- From a load of a source text that succeeds to the next load that does, the session has no fault
from an illegal instruction, and its listing shows no illegal word. -/
theorem never_illegal (s : Session) {source : Text} (hload : (s.load source).2.success = true)
    {ops : List Operation}
    (hops : ∀ r ∈ ((s.load source).1.performAll ops).2, r.accepts = false) {t : Session}
    (ht : ((s.load source).1.performAll ops).1 = t) :
    (∀ pc word, t.fault ≠ some (.illegalInstruction pc word)) ∧
      ∀ row ∈ t.listing, row.text ≠ "invalid opcode".toList := by
  have hloaded : Lawful (s.load source).1 := by
    unfold load at hload ⊢
    cases hassemble : assemble source with
    | ok p => exact .install s (legal_of_assemble hassemble)
    | error diagnostics => simp [hassemble] at hload
  have hlawful : Lawful t := ht ▸ hloaded.performAll hops
  exact ⟨fun pc word hfault => hlawful.fault _ hfault trivial, hlawful.legal.listing _ _⟩

/-- A session with an illegal word at first, and then with a program that calls too often. -/
theorem never_illegal_overflow :
    ∃ s t : Session,
      ((new { seed := some 1 } default).performAll
        [.loadImage "0111111100000000".toList, .run none]).1 = s ∧
      s.fault = some (.illegalInstruction 0 0x7F00) ∧
      (s.load ".f cal f".toList).2.success = true ∧
      (∀ r ∈ ((s.load ".f cal f".toList).1.performAll
        [.run none, .load "illegal".toList, .input 3]).2, r.accepts = false) ∧
      ((s.load ".f cal f".toList).1.performAll
        [.run none, .load "illegal".toList, .input 3]).1 = t ∧
      t.fault = some (.callStackOverflow 0) ∧
      (∀ pc word, t.fault ≠ some (.illegalInstruction pc word)) ∧
      ∀ row ∈ t.listing, row.text ≠ "invalid opcode".toList := by
  refine ⟨_, _, rfl, by decide +kernel, by decide +kernel, by decide +kernel, rfl,
    by decide +kernel, ?_⟩
  exact never_illegal _ (by decide +kernel) (by decide +kernel) rfl

end Session
end ByteMachine
