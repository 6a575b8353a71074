import ByteMachine.Proofs.HaltReasons

/-!
# Calls return to their caller

A step leaves the call stack as it is, pushes the address after a `cal`, or pops the address that a
`ret` goes to. So what lies under the top of the stack stays there for as long as the stack does not
become shorter than that. After a call this is the stack of the caller with the address after the
call on it, and the instruction that brings the stack back to the depth of the caller can only be a
`ret` to that address.
-/
namespace ByteMachine

theorem WordIs.unique {program : Program} {address : Nat} {k k' : Mnemonic}
    (h : WordIs program address k) (h' : WordIs program address k') : k = k' := by
  obtain ⟨word, i, hword, hdecode, rfl⟩ := h
  obtain ⟨word', i', hword', hdecode', rfl⟩ := h'
  obtain rfl := Option.some.inj (hword.symm.trans hword')
  rw [Except.ok.inj (hdecode.symm.trans hdecode')]

namespace Machine
variable {program : Program} {m : Machine}

instance (program : Program) (m : Machine) : Decidable (m.Executes program) :=
  inferInstanceAs (Decidable (_ = _))

def Performs (program : Program) (m : Machine) (mnemonic : Mnemonic) : Prop :=
  m.Executes program ∧ WordIs program m.processor.pc.toNat mnemonic

def after (program : Program) (n : Nat) (m : Machine) : Machine :=
  (fun m => (m.step program).1)^[n] m

theorem after_succ (program : Program) (n : Nat) (m : Machine) :
    after program (n + 1) m = ((after program n m).step program).1 :=
  Function.iterate_succ_apply' _ n m

theorem calls_execute {m' : Machine} {i : Instruction} (h : m.execute i = .ok m') :
    (i.mnemonic ≠ .cal ∧ m'.processor.calls = m.processor.calls) ∨
      (i.mnemonic = .cal ∧ m'.processor.calls = (m.processor.pc + 1) :: m.processor.calls) ∨
      (i.mnemonic = .ret ∧ m.processor.calls = m'.processor.pc :: m'.processor.calls) := by
  by_cases hi : i.mnemonic = .cal
  · obtain ⟨mnemonic, operands⟩ := i
    obtain rfl : mnemonic = .cal := hi
    cases operands
    simp only [execute, call_eq] at h
    obtain ⟨-, rfl⟩ := (guard_eq_ok_iff ..).mp h
    exact .inr (.inl ⟨rfl, rfl⟩)
  · cases (execute_effect h).2 with
    | next hpc hcalls hstatus => exact .inl ⟨hi, hcalls⟩
    | stay hhlt hpc hcalls hstatus => exact .inl ⟨hi, hcalls⟩
    | jump hjump hpc hcalls hstatus => exact .inl ⟨hi, hcalls⟩
    | call hcal hpc hdepth hcalls hstatus => exact absurd hcal hi
    | leave hret hcalls hstatus => exact .inr (.inr ⟨hret, hcalls⟩)

/-- What a step does to the call stack. -/
inductive StackStep (program : Program) (m m' : Machine) : Prop
  | keep (hcal : ¬ m.Performs program .cal) (hcalls : m'.processor.calls = m.processor.calls)
  | push (hcal : m.Performs program .cal)
      (hcalls : m'.processor.calls = (m.processor.pc + 1) :: m.processor.calls)
  | pop (hret : m.Performs program .ret)
      (hcalls : m.processor.calls = m'.processor.pc :: m'.processor.calls)

theorem stackStep (program : Program) (m : Machine) : StackStep program m (m.step program).1 := by
  have hkeep (h : (m.step program).1.processor.executed = m.processor.executed)
      (hcalls : (m.step program).1.processor.calls = m.processor.calls) :
      StackStep program m (m.step program).1 := by
    refine .keep ?_ hcalls
    rintro ⟨hexecutes, -⟩
    rw [Executes, h] at hexecutes
    omega
  have hstep := m.stepped program
  generalize hr : m.step program = r at hstep hkeep ⊢
  cases hstep with
  | idle hhalted => exact hkeep rfl rfl
  | ended hactive hend => exact hkeep rfl rfl
  | illegal hactive word e hword hdecode => exact hkeep rfl rfl
  | refused hactive word i fault hword hdecode hexecute => exact hkeep rfl rfl
  | executed hactive word i m' hword hdecode hexecute =>
    have hexecutes : m.Executes program := by
      rw [Executes, hr]
      exact congrArg (· + 1) (execute_effect hexecute).1.executed
    have hword : WordIs program m.processor.pc.toNat i.mnemonic := ⟨word, i, hword, hdecode, rfl⟩
    rcases calls_execute hexecute with ⟨hi, hcalls⟩ | ⟨hi, hcalls⟩ | ⟨hi, hcalls⟩
    · exact .keep (fun hcal => hi (hword.unique hcal.2)) hcalls
    · exact .push ⟨hexecutes, hi ▸ hword⟩ hcalls
    · exact .pop ⟨hexecutes, hi ▸ hword⟩ hcalls

theorem calls_call (hcall : m.Performs program .cal) :
    (m.step program).1.processor.calls = (m.processor.pc + 1) :: m.processor.calls := by
  cases m.stackStep program with
  | keep hcal hcalls => exact absurd hcall hcal
  | push hcal hcalls => exact hcalls
  | pop hret hcalls => cases hcall.2.unique hret.2

section Frames
variable {frames : List UInt16}

/-- What lies at the bottom of the stack stays there, unless a step leaves the stack shorter. -/
theorem suffix_step (h : frames <:+ m.processor.calls)
    (hdeep : m.Executes program → frames.length ≤ (m.step program).1.processor.calls.length) :
    frames <:+ (m.step program).1.processor.calls := by
  cases m.stackStep program with
  | keep hcal hcalls => rwa [hcalls]
  | push hcal hcalls =>
    rw [hcalls]
    exact h.trans (List.suffix_cons ..)
  | pop hret hcalls =>
    have hdeep := hdeep hret.1
    rw [hcalls, List.suffix_cons_iff] at h
    rcases h with heq | hsuffix
    · rw [heq, List.length_cons] at hdeep
      omega
    · exact hsuffix

theorem suffix_after (n : Nat) (h : frames <:+ m.processor.calls)
    (hdeep : ∀ k < n, (after program k m).Executes program →
      frames.length ≤ (after program (k + 1) m).processor.calls.length) :
    frames <:+ (after program n m).processor.calls := by
  induction n with
  | zero => exact h
  | succ n ih =>
    have hbefore := ih fun k hk => hdeep k (by omega)
    have hlast := hdeep n (by omega)
    rw [after_succ] at hlast ⊢
    exact suffix_step hbefore hlast

/-- The step that takes the top of what was at the bottom of the stack returns to it. -/
theorem returns_of_shorter {top : UInt16} {below : List UInt16}
    (h : top :: below <:+ m.processor.calls)
    (hdepth : (m.step program).1.processor.calls.length = below.length) :
    m.Performs program .ret ∧ (m.step program).1.processor.pc = top ∧
      (m.step program).1.processor.calls = below := by
  have hlength := h.length_le
  rw [List.length_cons] at hlength
  cases m.stackStep program with
  | keep hcal hcalls =>
    rw [hcalls] at hdepth
    omega
  | push hcal hcalls =>
    rw [hcalls, List.length_cons] at hdepth
    omega
  | pop hret hcalls =>
    rw [hcalls, List.suffix_cons_iff] at h
    rcases h with heq | hsuffix
    · obtain ⟨hpc, hbelow⟩ := List.cons.inj heq
      exact ⟨hret, hpc.symm, hbelow.symm⟩
    · have hshort := hsuffix.length_le
      rw [List.length_cons] at hshort
      omega

end Frames

/-- A call is returned from: if the instructions after it leave the stack deeper than the caller had
it, until one leaves it as deep as then, then this one is a `ret`, and it goes on behind the call
with the stack of the caller. -/
theorem returns_to_caller {n : Nat} (hcall : m.Performs program .cal)
    (hdeeper : ∀ k, 1 ≤ k → k < n → (after program k m).Executes program →
      m.processor.calls.length < (after program (k + 1) m).processor.calls.length)
    (hdepth : (after program (n + 1) m).processor.calls.length = m.processor.calls.length) :
    (after program n m).Performs program .ret ∧
      (after program (n + 1) m).processor.pc = m.processor.pc + 1 ∧
      (after program (n + 1) m).processor.calls = m.processor.calls := by
  have hshift (k : Nat) : after program (k + 1) m = after program k (m.step program).1 :=
    Function.iterate_succ_apply _ k m
  have hcalls := calls_call hcall
  cases n with
  | zero =>
    have hlength := congrArg List.length hcalls
    have hsame : (m.step program).1.processor.calls.length = m.processor.calls.length := hdepth
    rw [List.length_cons] at hlength
    omega
  | succ n =>
    have hframes : (m.processor.pc + 1) :: m.processor.calls <:+
        (after program (n + 1) m).processor.calls := by
      rw [hshift]
      refine suffix_after n (hcalls ▸ List.suffix_rfl) fun k hk hexecutes => ?_
      rw [← hshift] at hexecutes ⊢
      exact hdeeper (k + 1) (by omega) (by omega) hexecutes
    rw [after_succ program (n + 1)] at hdepth ⊢
    exact returns_of_shorter hframes hdepth

/-- A call whose callee calls another one, which stores to a port. -/
def nestedCalls : Program :=
  ⟨#[0xC002, 0x1000, 0xC004, 0xD000, 0xF120, 0xD000], #[0, 1, 2, 3, 4, 5]⟩

/-- The call is returned from by the fifth instruction. -/
theorem returns_to_caller_nested :
    let m := new (.new (some 1) default)
    m.Performs nestedCalls .cal ∧
      (∀ k, 1 ≤ k → k < 4 → m.processor.calls.length <
        (after nestedCalls (k + 1) m).processor.calls.length) ∧
      (after nestedCalls 4 m).Performs nestedCalls .ret ∧
      (after nestedCalls (4 + 1) m).processor.pc = m.processor.pc + 1 ∧
      (after nestedCalls (4 + 1) m).processor.calls = m.processor.calls := by
  intro m
  have hcall : m.Performs nestedCalls .cal :=
    ⟨by decide +kernel, 0xC002, ⟨.cal, .addr10 2⟩, by decide, by decide +kernel, rfl⟩
  have hdeeper (k : Nat) (hk : 1 ≤ k) (hn : k < 4) : m.processor.calls.length <
      (after nestedCalls (k + 1) m).processor.calls.length := by
    obtain rfl | rfl | rfl : k = 1 ∨ k = 2 ∨ k = 3 := by omega
    all_goals decide +kernel
  exact ⟨hcall, hdeeper,
    returns_to_caller hcall (fun k hk hn _ => hdeeper k hk hn) (by decide +kernel)⟩

end Machine
end ByteMachine
