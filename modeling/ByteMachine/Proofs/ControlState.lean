import ByteMachine.Proofs.AssemblyMeaning
import ByteMachine.Proofs.Runs

/-!
# The control state of a session

Whatever is done to a session, its program fits the limit, the program counter stays within the
limit, and the call stack holds at most its depth of return addresses, each of which follows a call
in the current program. The machine is never left running. The link from return addresses to calls
survives because a program is replaced only together with the machine.
-/
namespace ByteMachine

def FollowsCall (program : Program) (address : Nat) : Prop :=
  1 ≤ address ∧ address ≤ program.size ∧ ∃ word i, program.word? (address - 1) = some word ∧
    Instruction.decode word = .ok i ∧ i.mnemonic = .cal

structure Controlled (program : Program) (p : Processor) : Prop where
  pc_le : p.pc.toNat ≤ 1024
  depth_le : p.calls.length ≤ 16
  follows : ∀ e ∈ p.calls, FollowsCall program e.toNat
  zero : p.registers[0] = 0

theorem Controlled.start (program : Program) : Controlled program {} where
  pc_le := by decide
  depth_le := by decide
  follows := by simp
  zero := by simp

theorem Controlled.setStatus {program : Program} {m : Machine}
    (h : Controlled program m.processor) (status : Status) :
    Controlled program (m.setStatus status).processor :=
  ⟨h.pc_le, h.depth_le, h.follows, h.zero⟩

theorem lt_size_of_word? {program : Program} {a : Nat} {w : UInt16}
    (h : program.word? a = some w) : a < program.size :=
  (Array.getElem?_eq_some_iff.mp h).1

theorem Controlled.execute {program : Program} {m m' : Machine} {w : UInt16} {i : Instruction}
    (hsize : program.size ≤ programLimit) (h : Controlled program m.processor)
    (hword : program.word? m.processor.pc.toNat = some w) (hdecode : Instruction.decode w = .ok i)
    (hexecute : m.execute i = .ok m') : Controlled program m'.processor := by
  have hpc : m.processor.pc.toNat < program.size := lt_size_of_word? hword
  have hfits : i.operands.Fits := ((Instruction.decode_eq_ok_iff w i).mp hdecode).1
  have hnext : (m.processor.pc + 1).toNat = m.processor.pc.toNat + 1 := by
    rw [UInt16.toNat_add, Nat.mod_eq_of_lt]
    · rfl
    · exact (Nat.succ_le_of_lt hpc).trans_lt (hsize.trans_lt (by decide))
  obtain ⟨hframe, hmoves⟩ := Machine.execute_effect hexecute
  have hzero : m'.processor.registers[0] = 0 := hframe.zero.trans h.zero
  unfold programLimit at *
  cases hmoves with
  | next hpc' hcalls hstatus =>
    refine ⟨?_, hcalls ▸ h.depth_le, hcalls ▸ h.follows, hzero⟩
    rw [hpc', hnext]
    omega
  | stay hi hpc' hcalls hstatus =>
    exact ⟨hpc' ▸ h.pc_le, hcalls ▸ h.depth_le, hcalls ▸ h.follows, hzero⟩
  | jump hi hpc' hcalls hstatus =>
    exact ⟨(hpc' hfits).le, hcalls ▸ h.depth_le, hcalls ▸ h.follows, hzero⟩
  | call hi hpc' hdepth hcalls hstatus =>
    refine ⟨(hpc' hfits).le, ?_, ?_, hzero⟩
    · rw [hcalls, List.length_cons]
      exact hdepth
    · rw [hcalls]
      refine List.forall_mem_cons.mpr ⟨⟨?_, ?_, w, i, ?_, hdecode, hi⟩, h.follows⟩
      · omega
      · omega
      · rwa [hnext, Nat.add_sub_cancel]
  | leave hi hcalls hstatus =>
    -- the address that is jumped to was on the stack
    have hdepth := h.depth_le
    have hfollows := h.follows
    rw [hcalls] at hdepth hfollows
    obtain ⟨htop, hrest⟩ := List.forall_mem_cons.mp hfollows
    refine ⟨htop.2.1.trans hsize, ?_, hrest, hzero⟩
    rw [List.length_cons] at hdepth
    omega

theorem Controlled.step {program : Program} {m : Machine} (hsize : program.size ≤ programLimit)
    (h : Controlled program m.processor) : Controlled program (m.step program).1.processor := by
  have hstep := m.stepped program
  generalize m.step program = r at hstep
  cases hstep with
  | idle hhalted => exact h
  | ended hactive hend => exact h.setStatus .halted
  | illegal hactive word e hword hdecode => exact h.setStatus .halted
  | refused hactive word i fault hword hdecode hexecute => exact h.setStatus .halted
  | executed hactive word i m' hword hdecode hexecute =>
    have hm' := h.execute hsize hword hdecode hexecute
    exact ⟨hm'.pc_le, hm'.depth_le, hm'.follows, hm'.zero⟩

def AtRest (m : Machine) : Prop :=
  m.processor.status = .ready ∨ m.processor.status = .halted

theorem AtRest.step {m : Machine} (program : Program) (h : AtRest m) :
    AtRest (m.step program).1 := by
  have hstep := m.stepped program
  generalize m.step program = r at hstep
  cases hstep with
  | idle hhalted => exact h
  | ended hactive hend => exact .inr rfl
  | illegal hactive word e hword hdecode => exact .inr rfl
  | refused hactive word i fault hword hdecode hexecute => exact .inr rfl
  | executed hactive word i m' hword hdecode hexecute =>
    have hcount : AtRest (m'.count m.processor.pc) ↔ AtRest m' := .rfl
    rw [hcount, AtRest]
    cases (Machine.execute_effect hexecute).2 with
    | next hpc hcalls hstatus => rwa [hstatus]
    | stay hi hpc hcalls hstatus => exact .inr hstatus
    | jump hi hpc hcalls hstatus => rwa [hstatus]
    | call hi hpc hdepth hcalls hstatus => rwa [hstatus]
    | leave hi hcalls hstatus => rwa [hstatus]

theorem length_imageWords_le {total good : Nat} {rows : List ImageRow}
    (h : imageDiagnostics total good rows = []) (hgood : good ≤ programLimit) :
    good + (imageWords rows).length ≤ programLimit := by
  induction rows generalizing good with
  | nil => exact hgood
  | cons row rows ih =>
    rw [imageDiagnostics] at h
    cases hword : row.word with
    | ok w =>
      simp only [hword, List.append_eq_nil_iff, ite_eq_right_iff, List.cons_ne_nil, imp_false] at h
      have hrest := ih h.2 (Nat.lt_of_le_of_ne hgood h.1)
      simp only [imageWords, List.filterMap_cons, hword, Except.toOption, Option.map_some,
        List.length_cons] at hrest ⊢
      omega
    | error e => simp [hword] at h

theorem size_le_of_readImage {image : Text} {p : Program} (h : readImage image = .ok p) :
    p.size ≤ programLimit := by
  unfold readImage at h
  dsimp only at h
  split at h
  · rename_i hnone
    obtain rfl := Except.ok.inj h
    have hlength := length_imageWords_le hnone (Nat.zero_le _)
    rw [Program.size_ofList]
    omega
  · cases h

/-- The control state of a session is in order. -/
structure Sound (s : Session) : Prop where
  size_le : s.program.size ≤ 1024
  controlled : Controlled s.program s.machine.processor
  cursorX_lt : s.machine.memory.devices.cursorX.val < 32
  cursorY_lt : s.machine.memory.devices.cursorY.val < 32
  atRest : AtRest s.machine

theorem Sound.of_processor {s : Session} (hsize : s.program.size ≤ programLimit)
    (h : Controlled s.program s.machine.processor) (hrest : AtRest s.machine) : Sound s :=
  ⟨hsize, h, Fin.isLt _, Fin.isLt _, hrest⟩

theorem Sound.install (s : Session) {program : Program} (hsize : program.size ≤ programLimit) :
    Sound (s.install program) :=
  .of_processor hsize (.start program) (.inl rfl)

theorem Sound.perform {s : Session} (h : Sound s) (op : Operation) : Sound (s.perform op).1 := by
  cases op with
  | load source =>
    change Sound (s.load source).1
    unfold Session.load
    cases hassemble : assemble source with
    | ok program => exact .install s (size_le_of_assemble hassemble)
    | error diagnostics => exact h
  | loadImage image =>
    change Sound (s.loadImage image).1
    unfold Session.loadImage
    cases himage : readImage image with
    | ok program => exact .install s (size_le_of_readImage himage)
    | error diagnostics => exact h
  | step => exact .of_processor h.size_le (h.controlled.step h.size_le) (h.atRest.step s.program)
  | run limit =>
    refine .of_processor h.size_le ?_ (Machine.run_status ..)
    exact Machine.run_preserves (P := fun m => Controlled s.program m.processor)
      (fun m hm => hm.step h.size_le) (fun m status hm => hm.setStatus status) s.breakpoints _
      h.controlled
  | reset => exact .install s h.size_le
  | state => exact h
  | listing => exact h
  | breakpoint address =>
    change Sound (s.breakpoint address).1
    unfold Session.breakpoint
    split
    · exact .of_processor h.size_le h.controlled h.atRest
    · exact h
  | input value => exact .of_processor h.size_le h.controlled h.atRest

theorem Sound.new (config : Config) (entropy : Entropy) : Sound (Session.new config entropy) :=
  .of_processor (Nat.zero_le _) (.start {}) (.inl rfl)

/-- The control state is in order after any operations on a new session. -/
theorem sound_performAll (config : Config) (entropy : Entropy) (ops : List Operation) :
    Sound ((Session.new config entropy).performAll ops).1 :=
  Session.performAll_preserves (fun _ op hs => hs.perform op) (Sound.new config entropy) ops

end ByteMachine
