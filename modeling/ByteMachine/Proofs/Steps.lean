import ByteMachine.Machine.Run
import ByteMachine.Proofs.InstructionWords

/-!
# What a step does

A step that does not execute an instruction changes nothing but the status. An instruction moves the
program counter and the call stack in one of five ways, and leaves the first register, the counter
of executed instructions and the address of the last one to the step. Which steps are possible is
said once, with what has to hold for each of them, and everything about runs comes from that.
-/
namespace ByteMachine

namespace Processor

theorem write_registers_zero (p : Processor) (r value : UInt8) :
    (p.write r value).registers[0] = p.registers[0] := by
  unfold write
  by_cases hr : r = 0
  · rw [if_pos hr]
  · have hne : r.toNat ≠ 0 := by
      intro h
      exact hr (UInt8.toNat_inj.mp h)
    simp [hr, hne]

end Processor

/-- What a step can come to, and when. -/
inductive Stepped (program : Program) (m : Machine) : Machine × StepResult → Prop
  | idle (hhalted : m.isHalted = true) : Stepped program m (m, .halted)
  | ended (hactive : m.isHalted = false) (hend : program.word? m.processor.pc.toNat = none) :
      Stepped program m (m.halt, .halted)
  | illegal (hactive : m.isHalted = false) (word : UInt16) (e : DecodeError)
      (hword : program.word? m.processor.pc.toNat = some word)
      (hdecode : Instruction.decode word = .error e) :
      Stepped program m (m.halt, .faulted (.illegalInstruction m.processor.pc word))
  | refused (hactive : m.isHalted = false) (word : UInt16) (i : Instruction) (fault : Fault)
      (hword : program.word? m.processor.pc.toNat = some word)
      (hdecode : Instruction.decode word = .ok i) (hexecute : m.execute i = .error (fault, m)) :
      Stepped program m (m.halt, .faulted fault)
  | executed (hactive : m.isHalted = false) (word : UInt16) (i : Instruction) (m' : Machine)
      (hword : program.word? m.processor.pc.toNat = some word)
      (hdecode : Instruction.decode word = .ok i) (hexecute : m.execute i = .ok m') :
      Stepped program m (m'.count m.processor.pc, if m'.isHalted then .halted else .executed)

namespace Machine

/-- A call pushes the address after it while the stack has a place, and a full stack stays. -/
theorem call_eq (m : Machine) (address : UInt16) :
    m.call address =
      let p := m.processor
      if p.calls.length < callDepth then
        .ok { m with processor := { p with calls := (p.pc + 1) :: p.calls, pc := address } }
      else .error (.callStackOverflow p.pc, m) := by
  unfold call Processor.pushReturn
  by_cases hdepth : m.processor.calls.length < callDepth
  · simp only [hdepth, ↓reduceIte]
    rfl
  · simp only [hdepth, ↓reduceIte]

theorem return?_eq (m : Machine) :
    m.return? =
      let p := m.processor
      match p.calls with
      | [] => .error (.callStackUnderflow p.pc, m)
      | address :: calls => .ok { m with processor := { p with calls, pc := address } } := by
  unfold return? Processor.popReturn
  cases hcalls : m.processor.calls with
  | nil => simp only [hcalls]
  | cons address calls =>
    simp only [hcalls]
    rfl

/-- An instruction that faults is a call under a full stack or a return under an empty one. It
leaves the machine as it was. -/
theorem fault_of_execute {m left : Machine} {i : Instruction} {fault : Fault}
    (h : m.execute i = .error (fault, left)) :
    left = m ∧
      ((i.mnemonic = .cal ∧ callDepth ≤ m.processor.calls.length ∧
          fault = .callStackOverflow m.processor.pc) ∨
        (i.mnemonic = .ret ∧ m.processor.calls = [] ∧
          fault = .callStackUnderflow m.processor.pc)) := by
  obtain ⟨mnemonic, operands⟩ := i
  cases mnemonic <;> cases operands
  case cal.addr10 address =>
    simp only [execute, call_eq] at h
    split at h
    · cases h
    · rename_i hdepth
      cases h
      exact ⟨rfl, .inl ⟨rfl, Nat.le_of_not_lt hdepth, rfl⟩⟩
  case ret.none =>
    simp only [execute, return?_eq] at h
    split at h
    · rename_i hcalls
      cases h
      exact ⟨rfl, .inr ⟨rfl, hcalls, rfl⟩⟩
    · cases h
  all_goals cases h

theorem stepped (program : Program) (m : Machine) : Stepped program m (m.step program) := by
  unfold step
  by_cases hhalted : m.isHalted = true
  · rw [if_pos hhalted]
    exact .idle hhalted
  · rw [if_neg hhalted]
    have hactive : m.isHalted = false := eq_false_of_ne_true hhalted
    dsimp only
    split
    · rename_i hend
      exact .ended hactive hend
    · rename_i word hword
      split
      · rename_i e hdecode
        exact .illegal hactive word e hword hdecode
      · rename_i i hdecode
        split
        · rename_i fault left hexecute
          obtain ⟨rfl, -⟩ := fault_of_execute hexecute
          exact .refused hactive word i fault hword hdecode hexecute
        · rename_i m' hexecute
          exact .executed hactive word i m' hword hdecode hexecute

end Machine

/-- The step of a machine is the one that is possible. -/
theorem Stepped.eq {program : Program} {m : Machine} {r : Machine × StepResult}
    (h : Stepped program m r) : m.step program = r := by
  cases h with
  | idle hhalted => simp [Machine.step, hhalted]
  | ended hactive hend => simp [Machine.step, hactive, hend]
  | illegal hactive word e hword hdecode => simp [Machine.step, hactive, hword, hdecode]
  | refused hactive word i fault hword hdecode hexecute =>
    simp [Machine.step, hactive, hword, hdecode, hexecute]
  | executed hactive word i m' hword hdecode hexecute =>
    simp [Machine.step, hactive, hword, hdecode, hexecute]

/-- What only a step changes, and the first register, are as they were. -/
structure Frame (p p' : Processor) : Prop where
  executed : p'.executed = p.executed
  last : p'.last = p.last
  zero : p'.registers[0] = p.registers[0]

structure Keeps (p p' : Processor) : Prop extends Frame p p' where
  pc : p'.pc = p.pc
  calls : p'.calls = p.calls
  status : p'.status = p.status

inductive Moves (i : Instruction) (p p' : Processor) : Prop
  | next (hpc : p'.pc = p.pc + 1) (hcalls : p'.calls = p.calls) (hstatus : p'.status = p.status)
  | stay (hi : i.mnemonic = .hlt) (hpc : p'.pc = p.pc) (hcalls : p'.calls = p.calls)
      (hstatus : p'.status = .halted)
  | jump (hi : i.mnemonic = .jmp ∨ i.mnemonic = .brh)
      (hpc : i.operands.Fits → p'.pc.toNat < programLimit) (hcalls : p'.calls = p.calls)
      (hstatus : p'.status = p.status)
  | call (hi : i.mnemonic = .cal) (hpc : i.operands.Fits → p'.pc.toNat < programLimit)
      (hdepth : p.calls.length < callDepth) (hcalls : p'.calls = (p.pc + 1) :: p.calls)
      (hstatus : p'.status = p.status)
  | leave (hi : i.mnemonic = .ret) (hcalls : p.calls = p'.pc :: p'.calls)
      (hstatus : p'.status = p.status)

theorem Keeps.refl (p : Processor) : Keeps p p := ⟨⟨rfl, rfl, rfl⟩, rfl, rfl, rfl⟩

theorem Processor.keeps_write (p : Processor) (r value : UInt8) : Keeps p (p.write r value) := by
  refine ⟨⟨?_, ?_, p.write_registers_zero r value⟩, ?_, ?_, ?_⟩ <;>
    · unfold write
      split <;> rfl

namespace Machine

theorem keeps_write (m : Machine) (r value : UInt8) :
    Keeps m.processor (m.write r value).processor := m.processor.keeps_write r value

theorem keeps_setFlags (m : Machine) (flags : Flags) :
    Keeps m.processor (m.setFlags flags).processor := ⟨⟨rfl, rfl, rfl⟩, rfl, rfl, rfl⟩

theorem keeps_assign (m : Machine) (r : UInt8) (result : Flagged) :
    Keeps m.processor (m.assign r result).processor := by
  have h := (m.setFlags result.flags).keeps_write r result.value
  exact ⟨⟨h.executed, h.last, h.zero⟩, h.pc, h.calls, h.status⟩

/-- An instruction that changes registers, flags and memory goes on with the next one. -/
theorem effect_proceed {m m' : Machine} {i : Instruction} (h : Keeps m.processor m'.processor) :
    Frame m.processor m'.proceed.processor ∧ Moves i m.processor m'.proceed.processor := by
  refine ⟨⟨h.executed, h.last, h.zero⟩, .next ?_ h.calls h.status⟩
  exact congrArg (· + 1) h.pc

theorem frame_jump (m : Machine) (address : UInt16) :
    Frame m.processor (m.jump address).processor := ⟨rfl, rfl, rfl⟩

theorem effect_call {m m' : Machine} {i : Instruction} {address : UInt16} (hi : i.mnemonic = .cal)
    (hfits : i.operands.Fits → address.toNat < programLimit) (h : m.call address = .ok m') :
    Frame m.processor m'.processor ∧ Moves i m.processor m'.processor := by
  rw [call_eq] at h
  obtain ⟨hdepth, rfl⟩ := (guard_eq_ok_iff ..).mp h
  exact ⟨⟨rfl, rfl, rfl⟩, .call hi hfits hdepth rfl rfl⟩

theorem effect_return? {m m' : Machine} {i : Instruction} (hi : i.mnemonic = .ret)
    (h : m.return? = .ok m') :
    Frame m.processor m'.processor ∧ Moves i m.processor m'.processor := by
  rw [return?_eq] at h
  cases hcalls : m.processor.calls with
  | nil => simp [hcalls] at h
  | cons address calls =>
    simp only [hcalls, Except.ok.injEq] at h
    subst h
    exact ⟨⟨rfl, rfl, rfl⟩, .leave hi hcalls rfl⟩

/-- What an executed instruction does to the control state. The cases are those of the instruction
set. -/
theorem execute_effect {m m' : Machine} {i : Instruction} (h : m.execute i = .ok m') :
    Frame m.processor m'.processor ∧ Moves i m.processor m'.processor := by
  obtain ⟨mnemonic, operands⟩ := i
  cases mnemonic <;> cases operands
  case hlt.none =>
    obtain rfl := Except.ok.inj h
    exact ⟨⟨rfl, rfl, rfl⟩, .stay rfl rfl rfl rfl⟩
  case jmp.addr10 address =>
    obtain rfl := Except.ok.inj h
    exact ⟨m.frame_jump address, .jump (.inl rfl) id rfl rfl⟩
  case brh.condAddr10 cond address =>
    obtain rfl := Except.ok.inj h
    split
    · exact ⟨m.frame_jump address, .jump (.inr rfl) id rfl rfl⟩
    · exact effect_proceed (.refl _)
  case cal.addr10 address => exact effect_call rfl id h
  case ret.none => exact effect_return? rfl h
  -- the other instructions write a register, the flags or the memory and go on
  all_goals
    obtain rfl := Except.ok.inj h
    apply effect_proceed
    first
      | exact keeps_assign ..
      | exact keeps_write ..
      | exact .refl _
      | exact keeps_setFlags ..

/-- How an instruction changes the memory: not at all, by a load or by a store. -/
theorem execute_memory {m m' : Machine} {i : Instruction} (h : m.execute i = .ok m') :
    m'.memory = m.memory ∨ (∃ address, m'.memory = (m.memory.load address).2) ∨
      ∃ address value, m'.memory = m.memory.store address value := by
  obtain ⟨mnemonic, operands⟩ := i
  cases mnemonic <;> cases operands
  case lod.regRegOffset a b offset =>
    obtain rfl := Except.ok.inj h
    exact .inr (.inl ⟨m.effectiveAddress b offset, rfl⟩)
  case str.regRegOffset a b offset =>
    obtain rfl := Except.ok.inj h
    exact .inr (.inr ⟨m.effectiveAddress b offset, m.read a, rfl⟩)
  case cal.addr10 address =>
    simp only [execute, call_eq] at h
    obtain ⟨-, rfl⟩ := (guard_eq_ok_iff ..).mp h
    exact .inl rfl
  case ret.none =>
    simp only [execute, return?_eq] at h
    split at h
    · cases h
    · obtain rfl := Except.ok.inj h
      exact .inl rfl
  case brh.condAddr10 cond address =>
    obtain rfl := Except.ok.inj h
    split
    · exact .inl rfl
    · exact .inl rfl
  all_goals
    obtain rfl := Except.ok.inj h
    exact .inl rfl

/-- A step that executes an instruction counts it. The machine is active after a step exactly when
the step says that it executed one. -/
theorem step_counts (program : Program) (m : Machine) :
    ((m.step program).2 = .executed ∧ (m.step program).1.isHalted = false ∧
        (m.step program).1.processor.executed = m.processor.executed + 1) ∨
      ((m.step program).2 ≠ .executed ∧ (m.step program).1.isHalted = true ∧
        ((m.step program).1.processor.executed = m.processor.executed ∨
          (m.step program).1.processor.executed = m.processor.executed + 1)) := by
  have hstep := m.stepped program
  generalize m.step program = r at hstep
  cases hstep with
  | idle hhalted => exact .inr ⟨by simp, hhalted, .inl rfl⟩
  | ended hactive hend => exact .inr ⟨by simp, rfl, .inl rfl⟩
  | illegal hactive word e hword hdecode => exact .inr ⟨by simp, rfl, .inl rfl⟩
  | refused hactive word i fault hword hdecode hexecute => exact .inr ⟨by simp, rfl, .inl rfl⟩
  | executed hactive word i m' hword hdecode hexecute =>
    have hcount : (m'.count m.processor.pc).processor.executed = m.processor.executed + 1 :=
      congrArg (· + 1) (execute_effect hexecute).1.executed
    by_cases hhalted : m'.isHalted = true
    · exact .inr ⟨by simp [hhalted], hhalted, .inr hcount⟩
    · exact .inl ⟨by simp [hhalted], eq_false_of_ne_true hhalted, hcount⟩

def mapMachine (f : Machine → Machine) : Effect → Effect
  | .ok m => .ok (f m)
  | .error (fault, m) => .error (fault, f m)

section SetStatus
variable (m : Machine) (status : Status)

theorem write_setStatus (r value : UInt8) :
    (m.setStatus status).write r value = (m.write r value).setStatus status := by
  unfold write Processor.write setStatus
  split <;> rfl

theorem assign_setStatus (r : UInt8) (result : Flagged) :
    (m.setStatus status).assign r result = (m.assign r result).setStatus status :=
  (m.setFlags result.flags).write_setStatus status r result.value

theorem call_setStatus (address : UInt16) :
    (m.setStatus status).call address = mapMachine (·.setStatus status) (m.call address) := by
  rw [call_eq, call_eq]
  dsimp only [setStatus]
  split <;> rfl

theorem return?_setStatus :
    (m.setStatus status).return? = mapMachine (·.setStatus status) m.return? := by
  rw [return?_eq, return?_eq]
  dsimp only [setStatus]
  split <;> rfl

/-- No instruction but `hlt` depends on the status or changes it. -/
theorem execute_setStatus {i : Instruction} (hi : i.mnemonic ≠ .hlt) :
    (m.setStatus status).execute i = mapMachine (·.setStatus status) (m.execute i) := by
  obtain ⟨mnemonic, operands⟩ := i
  cases mnemonic <;> cases operands
  case hlt.none => exact absurd rfl hi
  case cal.addr10 address => exact m.call_setStatus status address
  case ret.none => exact m.return?_setStatus status
  case brh.condAddr10 cond address =>
    have hflags : (m.setStatus status).processor.flags = m.processor.flags := rfl
    simp only [execute, mapMachine, hflags]
    by_cases hcond : cond.holds m.processor.flags = true
    · rw [if_pos hcond, if_pos hcond]
      rfl
    · rw [if_neg hcond, if_neg hcond]
      rfl
  case lod.regRegOffset a b offset =>
    let loaded : Machine := { m with memory := (m.memory.load (m.effectiveAddress b offset)).2 }
    exact congrArg (fun m => Except.ok m.proceed) (loaded.write_setStatus status a _)
  all_goals
    first
      | rfl
      | exact congrArg (fun m => Except.ok m.proceed) (m.assign_setStatus status _ _)
      | exact congrArg (fun m => Except.ok m.proceed) (m.write_setStatus status _ _)

theorem isHalted_execute {m' : Machine} {i : Instruction} (hi : i.mnemonic ≠ .hlt)
    (hexecute : m.execute i = .ok m') : m'.isHalted = m.isHalted := by
  have hstatus : m'.processor.status = m.processor.status := by
    cases (execute_effect hexecute).2 with
    | next hpc hcalls hstatus => exact hstatus
    | stay hhlt hpc hcalls hstatus => exact absurd hhlt hi
    | jump hi hpc hcalls hstatus => exact hstatus
    | call hi hpc hdepth hcalls hstatus => exact hstatus
    | leave hi hcalls hstatus => exact hstatus
  simp only [isHalted, Processor.isHalted, hstatus]

/-- An active machine steps alike whatever its status is. The status stays, unless the machine
halts. -/
theorem step_setStatus (program : Program) (hactive : m.isHalted = false)
    (hstatus : status ≠ .halted) :
    (m.setStatus status).step program =
      (if (m.step program).1.isHalted then (m.step program).1
        else (m.step program).1.setStatus status, (m.step program).2) := by
  have hset (m : Machine) : (m.setStatus status).isHalted = false := beq_eq_false_iff_ne.mpr hstatus
  apply Stepped.eq
  have hstep := m.stepped program
  generalize m.step program = r at hstep
  cases hstep with
  | idle hhalted => simp [hactive] at hhalted
  | ended _ hend => exact .ended (hset m) hend
  | illegal _ word e hword hdecode => exact .illegal (hset m) word e hword hdecode
  | refused _ word i fault hword hdecode hexecute =>
    have hi : i.mnemonic ≠ .hlt := by
      obtain ⟨-, ⟨hi, -⟩ | ⟨hi, -⟩⟩ := fault_of_execute hexecute <;> simp [hi]
    refine .refused (hset m) word i fault hword hdecode ?_
    rw [m.execute_setStatus status hi, hexecute]
    rfl
  | executed _ word i m' hword hdecode hexecute =>
    by_cases hi : i.mnemonic = .hlt
    · obtain ⟨mnemonic, operands⟩ := i
      obtain rfl : mnemonic = .hlt := hi
      cases operands
      obtain rfl := Except.ok.inj hexecute
      exact .executed (hset m) word _ m.halt hword hdecode rfl
    · have hm' : m'.isHalted = false := (m.isHalted_execute hi hexecute).trans hactive
      have hexecute' : (m.setStatus status).execute i = .ok (m'.setStatus status) := by
        rw [m.execute_setStatus status hi, hexecute]
        rfl
      have hstep := Stepped.executed (hset m) word i (m'.setStatus status) hword hdecode hexecute'
      have hcount : (m'.count m.processor.pc).isHalted = false := hm'
      rw [hset] at hstep
      rw [hcount, hm']
      exact hstep

end SetStatus

end Machine
end ByteMachine
