import ByteMachine.Proofs.LegalPrograms

/-!
# The instruction shown last

A snapshot shows the text of the instruction that was executed last. A machine keeps only the
address of it, and the text is read from the program that is loaded when the snapshot is taken. It
is the right one because a program is replaced only together with the machine, and because a step
sets the address exactly when it counts an instruction. So the address is always the last of those
that were executed since the machine was new, and the counter is the number of them.
-/
namespace ByteMachine

structure Recorded (program : Program) (log : List UInt16) (p : Processor) : Prop where
  count : p.executed = log.length
  last : p.last = log.getLast?
  legal : ∀ a ∈ log, ∃ word i, program.word? a.toNat = some word ∧ Instruction.decode word = .ok i

namespace Machine

theorem path_one {program : Program} {m : Machine} (h : m.Executes program) :
    m.path program 1 = [m.processor.pc] := path_succ h 0

/-- The first step of a path. A step that is not counted halts the machine, so that no other one
follows. -/
theorem path_add_one (program : Program) (n : Nat) (m : Machine) :
    m.path program (n + 1) = m.path program 1 ++ (m.step program).1.path program n := by
  rcases m.step_counts program with ⟨-, -, hcount⟩ | ⟨-, hhalted, hcount | hcount⟩
  · rw [path_succ hcount, path_one hcount]
    rfl
  · rw [path_eq_nil hcount, path_eq_nil hcount, path_of_halted hhalted]
    rfl
  · rw [path_succ hcount, path_one hcount]
    rfl

theorem path_length_path (program : Program) (n : Nat) (m : Machine) :
    m.path program (m.path program n).length = m.path program n := by
  induction n generalizing m with
  | zero => rfl
  | succ n ih =>
    by_cases hcount : (m.step program).1.processor.executed = m.processor.executed
    · have hnil := path_eq_nil hcount (n + 1)
      rw [hnil]
      rfl
    · have hpath (k : Nat) : m.path program (k + 1) =
          m.processor.pc :: (m.step program).1.path program k := by
        rw [path, if_neg hcount]
      rw [hpath, List.length_cons, hpath, ih]

end Machine

theorem Recorded.start (program : Program) : Recorded program [] {} where
  count := rfl
  last := rfl
  legal := by simp

theorem Recorded.step {program : Program} {log : List UInt16} {m : Machine}
    (h : Recorded program log m.processor) :
    Recorded program (log ++ m.path program 1) (m.step program).1.processor := by
  -- a step that executes no instruction leaves the count, and the log with it
  have hkeep {m' : Machine} {result : StepResult} (hstep : m.step program = (m', result))
      (hcount : m'.processor.executed = m.processor.executed)
      (hlast : m'.processor.last = m.processor.last) :
      Recorded program (log ++ m.path program 1) m'.processor := by
    rw [Machine.path_eq_nil (by rw [hstep]; exact hcount), List.append_nil]
    exact ⟨hcount.trans h.count, hlast.trans h.last, h.legal⟩
  have hstep := m.stepped program
  generalize hresult : m.step program = r at hstep
  cases hstep with
  | idle hhalted => exact hkeep hresult rfl rfl
  | ended hactive hend => exact hkeep hresult rfl rfl
  | illegal hactive word e hword hdecode => exact hkeep hresult rfl rfl
  | refused hactive word i fault hword hdecode hexecute => exact hkeep hresult rfl rfl
  | executed hactive word i m' hword hdecode hexecute =>
    have hcount : (m'.count m.processor.pc).processor.executed = m.processor.executed + 1 :=
      congrArg (· + 1) (Machine.execute_effect hexecute).1.executed
    have hexecutes : m.Executes program := by
      rw [Machine.Executes, hresult]
      exact hcount
    rw [Machine.path_one hexecutes]
    refine ⟨?_, ?_, ?_⟩
    · rw [hcount, h.count, List.length_append, List.length_singleton]
    · rw [List.getLast?_append, List.getLast?_singleton, Option.some_or]
      rfl
    · intro a ha
      rcases List.mem_append.mp ha with hbefore | hnow
      · exact h.legal a hbefore
      · obtain rfl := List.mem_singleton.mp hnow
        exact ⟨word, i, hword, hdecode⟩

namespace Session

def restarts (op : Operation) (response : Response) : Bool := op == .reset || response.accepts

def executedBy (s : Session) : Operation → List UInt16
  | .step => s.machine.path s.program 1
  | .run limit =>
    s.machine.path s.program
      ((s.run limit).machine.processor.executed - s.machine.processor.executed)
  | _ => []

/-- The addresses of the instructions that have been executed after operations since the machine was
new, when those before the operations are given. -/
def sinceRestart : Session → List UInt16 → List Operation → List UInt16
  | _, log, [] => log
  | s, log, op :: ops =>
    let (next, response) := s.perform op
    sinceRestart next (if restarts op response then [] else log ++ s.executedBy op) ops

theorem recorded_iterate_step {s : Session} {log : List UInt16}
    (h : Recorded s.program log s.machine.processor) (k : Nat) :
    Recorded s.program (log ++ s.machine.path s.program k) (step^[k] s).machine.processor := by
  induction k generalizing s log with
  | zero => simpa [Machine.path] using h
  | succ k ih =>
    have hstep : Recorded s.step.program (log ++ s.machine.path s.program 1)
        s.step.machine.processor := h.step
    rw [iterate_step_succ, Machine.path_add_one, ← List.append_assoc]
    exact ih hstep

/-- A run is steps, and the counter tells how long the path of these steps is. -/
theorem recorded_run {s : Session} {log : List UInt16}
    (h : Recorded s.program log s.machine.processor) (hrest : AtRest s.machine)
    (limit : Option Nat) :
    Recorded s.program (log ++ s.executedBy (.run limit)) (s.run limit).machine.processor := by
  obtain ⟨k, reason, hrun, -⟩ := exists_run_eq hrest limit
  have hsteps := recorded_iterate_step h k
  have hmachine : (s.run limit).machine = (step^[k] s).machine := congrArg (·.machine) hrun
  have hcount : (s.run limit).machine.processor.executed - s.machine.processor.executed =
      (s.machine.path s.program k).length := by
    rw [hmachine, hsteps.count, h.count, List.length_append, Nat.add_sub_cancel_left]
  rw [executedBy, hcount, Machine.path_length_path, hmachine]
  exact hsteps

theorem recorded_perform {s : Session} {log : List UInt16}
    (h : Recorded s.program log s.machine.processor) (hrest : AtRest s.machine) (op : Operation) :
    Recorded (s.perform op).1.program
      (if restarts op (s.perform op).2 then [] else log ++ s.executedBy op)
      (s.perform op).1.machine.processor := by
  by_cases haccepts : (s.perform op).2.accepts = true
  · obtain ⟨p, hp⟩ := exists_install_of_accepts haccepts
    rw [restarts, haccepts, Bool.or_true, if_pos rfl, (hp s).1]
    exact .start p
  · have hkeep : Recorded s.program (log ++ []) s.machine.processor := by
      rwa [List.append_nil]
    rw [restarts, eq_false_of_ne_true haccepts, Bool.or_false]
    cases op with
    | load source =>
      have hrejects : (s.perform (.load source)).2.rejects = true := by
        simpa [perform, Response.accepts, Response.rejects] using haccepts
      rw [perform_of_rejects hrejects]
      exact hkeep
    | loadImage image =>
      have hrejects : (s.perform (.loadImage image)).2.rejects = true := by
        simpa [perform, Response.accepts, Response.rejects] using haccepts
      rw [perform_of_rejects hrejects]
      exact hkeep
    | step => exact h.step
    | run limit => exact recorded_run h hrest limit
    | reset => exact .start s.program
    | state => exact hkeep
    | listing => exact hkeep
    | breakpoint address =>
      simp only [perform, breakpoint]
      split
      · exact hkeep
      · exact hkeep
    | input value => exact hkeep

theorem recorded_performAll {s : Session} {log : List UInt16}
    (h : Recorded s.program log s.machine.processor) (hsound : Sound s) (ops : List Operation) :
    Recorded (s.performAll ops).1.program (s.sinceRestart log ops)
      (s.performAll ops).1.machine.processor := by
  induction ops generalizing s log with
  | nil => exact h
  | cons op ops ih =>
    rw [performAll_cons]
    exact ih (recorded_perform h hsound.atRest op) (hsound.perform op)

structure ShowsLast (s : Session) (log : List UInt16) : Prop where
  instructions : s.snapshot.instructions = log.length
  eq_none_iff : s.snapshot.lastInstruction = none ↔ s.snapshot.instructions = 0
  shown (a : UInt16) : log.getLast? = some a →
    s.machine.processor.last = some a ∧ a.toNat < s.program.size ∧
      ∃ word i, s.program.word? a.toNat = some word ∧ Instruction.decode word = .ok i ∧
        s.snapshot.lastInstruction = some (String.ofList i.text)
  valid : s.snapshot.lastInstruction ≠ some "invalid opcode"
  faulted (fault : Fault) : (s.machine.step s.program).2 = .faulted fault →
    s.step.snapshot.instructions = s.snapshot.instructions ∧
      s.step.snapshot.lastInstruction = s.snapshot.lastInstruction

theorem last_step_of_faulted {program : Program} {m : Machine} {fault : Fault}
    (h : (m.step program).2 = .faulted fault) :
    (m.step program).1.processor.last = m.processor.last := by
  have hstep := m.stepped program
  generalize m.step program = r at hstep h
  cases hstep with
  | idle hhalted => rfl
  | ended hactive hend => rfl
  | illegal hactive word e hword hdecode => rfl
  | refused hactive word i fault hword hdecode hexecute => rfl
  | executed hactive word i m' hword hdecode hexecute => split at h <;> cases h

theorem wordText_eq_text {word : UInt16} {i : Instruction} (h : Instruction.decode word = .ok i) :
    wordText word = i.text := by
  rw [wordText, h]

/-- What is shown follows from what is recorded: nothing without an instruction, else the text of an
instruction in the program. -/
theorem lastInstruction_cases {s : Session} {log : List UInt16}
    (h : Recorded s.program log s.machine.processor) :
    (log = [] ∧ s.snapshot.lastInstruction = none) ∨
      ∃ a word i, log.getLast? = some a ∧ s.program.word? a.toNat = some word ∧
        Instruction.decode word = .ok i ∧
        s.snapshot.lastInstruction = some (String.ofList i.text) := by
  cases hlog : log.getLast? with
  | none =>
    have hlast : s.machine.processor.last = none := h.last.trans hlog
    exact .inl ⟨List.getLast?_eq_none_iff.mp hlog, by simp [snapshot, Machine.snapshot, hlast]⟩
  | some a =>
    have hlast : s.machine.processor.last = some a := h.last.trans hlog
    obtain ⟨word, i, hword, hdecode⟩ := h.legal a (List.mem_of_getLast? hlog)
    refine .inr ⟨a, word, i, rfl, hword, hdecode, ?_⟩
    simp [snapshot, Machine.snapshot, hlast, hword, wordText_eq_text hdecode]

theorem ShowsLast.of_recorded {s : Session} {log : List UInt16}
    (h : Recorded s.program log s.machine.processor) : ShowsLast s log where
  instructions := h.count
  eq_none_iff := by
    have hcount : s.snapshot.instructions = log.length := h.count
    rw [hcount, List.length_eq_zero_iff]
    rcases lastInstruction_cases h with ⟨rfl, hnone⟩ | ⟨a, word, i, hlast, -, -, htext⟩
    · simp [hnone]
    · have hne : log ≠ [] := List.ne_nil_of_mem (List.mem_of_getLast? hlast)
      simp [htext, hne]
  shown a ha := by
    rcases lastInstruction_cases h with ⟨rfl, -⟩ | ⟨a', word, i, hlast, hword, hdecode, htext⟩
    · cases ha
    · obtain rfl := Option.some.inj (hlast.symm.trans ha)
      exact ⟨h.last.trans hlast, lt_size_of_word? hword, word, i, hword, hdecode, htext⟩
  valid := by
    rcases lastInstruction_cases h with ⟨-, hnone⟩ | ⟨a, word, i, -, -, hdecode, htext⟩
    · simp [hnone]
    · rw [htext, ← wordText_eq_text hdecode]
      intro hinvalid
      have htoList := congrArg String.toList (Option.some.inj hinvalid)
      rw [String.toList_ofList] at htoList
      exact wordText_ne_invalid hdecode htoList
  faulted fault hfault := by
    have hcount := Machine.executed_step_of_refuses (.inr ⟨fault, hfault⟩)
    have hlast := last_step_of_faulted hfault
    refine ⟨hcount, ?_⟩
    simp only [snapshot, Machine.snapshot, machine_step, hlast]
    rfl

/-- After any operations on a new session, what is shown as the last instruction is the instruction
that was executed last since the last reset or load. -/
theorem showsLast_performAll (config : Config) (entropy : Entropy) (ops : List Operation) :
    ShowsLast ((new config entropy).performAll ops).1 ((new config entropy).sinceRestart [] ops) :=
  .of_recorded (recorded_performAll (.start {}) (.new config entropy) ops)

end Session
end ByteMachine
