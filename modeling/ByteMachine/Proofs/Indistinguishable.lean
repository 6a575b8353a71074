import ByteMachine.Proofs.Runs

/-!
# Sessions that cannot be told apart

Of a program the operations read only its words, and of the breakpoints only which addresses are
among them. The lines that the words came from and the order in which breakpoints were set show in
no response. So sessions that differ in nothing else stay alike under every operation, and answer
every sequence of operations with the same responses.

A copy of a session is alike when its resets get the same random bytes: always if there is a seed,
and without one if the operating system gives both the same keys.
-/
namespace ByteMachine

/-- What the devices are given from outside: the controller sample and the random bytes. -/
def Devices.external (d : Devices) : UInt8 × RandomSource := (d.controller, d.generator.source)

theorem Devices.external_write (d : Devices) (value : UInt8) (port : Port) :
    (d.write value port).external = d.external := by
  cases port <;> rfl

theorem Devices.external_read (d : Devices) (port : Port) :
    (d.read port).2.external = d.external := by
  cases port <;> rfl

namespace Memory

theorem external_load (m : Memory) (address : UInt8) :
    (m.load address).2.devices.external = m.devices.external := by
  unfold load
  split
  · rfl
  · exact m.devices.external_read _

theorem external_store (m : Memory) (address value : UInt8) :
    (m.store address value).devices.external = m.devices.external := by
  unfold store
  dsimp only
  split
  · rfl
  · exact m.devices.external_write value _

end Memory

namespace Machine

def external (m : Machine) : UInt8 × RandomSource := m.memory.devices.external

theorem external_execute {m m' : Machine} {i : Instruction} (h : m.execute i = .ok m') :
    m'.external = m.external := by
  unfold external
  rcases execute_memory h with hmemory | ⟨address, hmemory⟩ | ⟨address, value, hmemory⟩
  · rw [hmemory]
  · rw [hmemory, Memory.external_load]
  · rw [hmemory, Memory.external_store]

theorem external_step (program : Program) (m : Machine) :
    (m.step program).1.external = m.external := by
  have hstep := m.stepped program
  generalize m.step program = r at hstep
  cases hstep with
  | idle hhalted => rfl
  | ended hactive hend => rfl
  | illegal hactive word e hword hdecode => rfl
  | refused hactive word i fault hword hdecode hexecute => rfl
  | executed hactive word i m' hword hdecode hexecute =>
    exact (external_execute hexecute : m'.external = m.external)

theorem external_run (program : Program) (b : Breakpoints) (limit : Nat) (m : Machine) :
    (m.run program b limit).1.external = m.external :=
  run_preserves (P := fun m' => m'.external = m.external)
    (fun m' h => (external_step program m').trans h) (fun _ _ h => h) b limit rfl

end Machine

namespace RandomSource

def isSeeded : RandomSource → Bool
  | seeded _ => true
  | unseeded _ => false

/-- The source with these keys for the restarts after the present one. -/
def withEntropy (entropy : Entropy) : RandomSource → RandomSource
  | seeded stream => seeded stream
  | unseeded streams => unseeded fun
    | 0 => streams 0
    | n + 1 => (entropy n).stream

theorem isSeeded_next (source : RandomSource) : source.next.isSeeded = source.isSeeded := by
  cases source <;> rfl

theorem withEntropy_of_isSeeded {source : RandomSource} (h : source.isSeeded = true)
    (entropy : Entropy) : source.withEntropy entropy = source := by
  cases source with
  | seeded stream => rfl
  | unseeded streams => cases h

end RandomSource

section Congruence
variable {p q : Program} {b c : Breakpoints}

theorem Breakpoints.toggle_congr (h : ∀ a, b.contains a = c.contains a) (address : Nat) :
    (b.toggle address).2 = (c.toggle address).2 ∧
      ∀ a, (b.toggle address).1.contains a = (c.toggle address).1.contains a := by
  constructor
  · unfold toggle
    rw [h]
    split <;> rfl
  · intro a
    by_cases ha : a = address
    · subst ha
      rw [contains_toggle_self, contains_toggle_self, h]
    · rw [contains_toggle_of_ne b ha, contains_toggle_of_ne c ha, h]

theorem Program.listing_congr (hwords : p.words = q.words) (pc : Nat)
    (hb : ∀ a, b.contains a = c.contains a) : p.listing pc b = q.listing pc c := by
  simp only [listing, hwords, hb]

namespace Machine

theorem step_congr (hwords : p.words = q.words) (m : Machine) : m.step p = m.step q := by
  simp only [step, Program.word?, hwords]

theorem repeatStep_congr (hwords : p.words = q.words) (hb : ∀ a, b.contains a = c.contains a)
    (limit : Nat) (fresh : Bool) (m : Machine) :
    repeatStep p b limit fresh m = repeatStep q c limit fresh m := by
  induction limit generalizing fresh m with
  | zero => rfl
  | succ limit ih => simp only [repeatStep, hb, step_congr hwords, ih]

theorem run_congr (hwords : p.words = q.words) (hb : ∀ a, b.contains a = c.contains a)
    (limit : Nat) (m : Machine) : m.run p b limit = m.run q c limit := by
  simp only [run, repeatStep_congr hwords hb]

theorem snapshot_congr (hwords : p.words = q.words) (m : Machine) (fault : Option Fault)
    (stop : Option StopReason) : m.snapshot p fault stop = m.snapshot q fault stop := by
  simp only [snapshot, Program.size, Program.word?, hwords]

end Machine
end Congruence

namespace Session

/-- The sessions differ at most in the lines of their programs and in the order of their
breakpoints. -/
structure Alike (s t : Session) : Prop where
  config : s.config = t.config
  words : s.program.words = t.program.words
  machine : s.machine = t.machine
  breakpoints (a : Nat) : s.breakpoints.contains a = t.breakpoints.contains a
  fault : s.fault = t.fault
  stop : s.stop = t.stop

structure SameSetting (s t : Session) : Prop where
  config : s.config = t.config
  source : s.machine.memory.devices.generator.source.next =
    t.machine.memory.devices.generator.source.next
  controller : s.machine.memory.devices.controller = t.machine.memory.devices.controller
  breakpoints (a : Nat) : s.breakpoints.contains a = t.breakpoints.contains a

def Indistinguishable (s t : Session) : Prop := ∀ ops, (s.performAll ops).2 = (t.performAll ops).2

variable {s t : Session}

theorem SameSetting.refl (s : Session) : SameSetting s s := ⟨rfl, rfl, rfl, fun _ => rfl⟩

theorem Alike.snapshot (h : Alike s t) : s.snapshot = t.snapshot := by
  unfold Session.snapshot
  rw [h.machine, h.fault, h.stop]
  exact Machine.snapshot_congr h.words ..

theorem Alike.sameSetting (h : Alike s t) : SameSetting s t :=
  ⟨h.config, by rw [h.machine], by rw [h.machine], h.breakpoints⟩

theorem SameSetting.install (h : SameSetting s t) {p q : Program} (hwords : p.words = q.words) :
    Alike (s.install p) (t.install q) := by
  refine ⟨h.config, hwords, ?_, h.breakpoints, rfl, rfl⟩
  simp only [Session.install, Session.reset, Machine.reset, Memory.reset, Devices.reset,
    Generator.restart, h.source, h.controller]

theorem SameSetting.reset (h : SameSetting s t) (hwords : s.program.words = t.program.words) :
    Alike s.reset t.reset :=
  h.install hwords

theorem Alike.step (h : Alike s t) : Alike s.step t.step := by
  unfold Session.step
  rw [h.machine, h.fault, Machine.step_congr h.words]
  exact ⟨h.config, h.words, rfl, h.breakpoints, rfl, rfl⟩

theorem Alike.run (h : Alike s t) (limit : Option Nat) : Alike (s.run limit) (t.run limit) := by
  unfold Session.run
  rw [h.config, h.machine, h.fault, Machine.run_congr h.words h.breakpoints]
  exact ⟨rfl, h.words, rfl, h.breakpoints, rfl, rfl⟩

theorem Alike.input (h : Alike s t) (value : UInt8) : Alike (s.input value) (t.input value) := by
  unfold Session.input
  rw [h.machine]
  exact ⟨h.config, h.words, rfl, h.breakpoints, h.fault, h.stop⟩

/-- One operation answers alike in sessions that are alike, and leaves them alike. -/
theorem Alike.perform (h : Alike s t) (op : Operation) :
    Alike (s.perform op).1 (t.perform op).1 ∧ (s.perform op).2 = (t.perform op).2 := by
  cases op with
  | load source =>
    simp only [Session.perform, load]
    cases assemble source with
    | ok p => exact ⟨h.sameSetting.install rfl, rfl⟩
    | error diagnostics => exact ⟨h, rfl⟩
  | loadImage image =>
    simp only [Session.perform, loadImage]
    cases readImage image with
    | ok p => exact ⟨h.sameSetting.install rfl, rfl⟩
    | error diagnostics => exact ⟨h, rfl⟩
  | step => exact ⟨h.step, congrArg Response.state h.step.snapshot⟩
  | run limit => exact ⟨h.run limit, congrArg Response.state (h.run limit).snapshot⟩
  | reset =>
    have hreset : Alike s.reset t.reset := h.sameSetting.reset h.words
    exact ⟨hreset, congrArg Response.state hreset.snapshot⟩
  | state => exact ⟨h, congrArg Response.state h.snapshot⟩
  | listing =>
    refine ⟨h, congrArg Response.listing ?_⟩
    unfold Session.listing
    rw [h.machine]
    exact Program.listing_congr h.words _ h.breakpoints
  | breakpoint address =>
    simp only [Session.perform, breakpoint]
    split
    · obtain ⟨htoggle, hcontains⟩ := Breakpoints.toggle_congr h.breakpoints address
      rw [htoggle]
      exact ⟨⟨h.config, h.words, h.machine, hcontains, h.fault, h.stop⟩, rfl⟩
    · exact ⟨h, rfl⟩
  | input value => exact ⟨h.input value, congrArg Response.state (h.input value).snapshot⟩

theorem Alike.indistinguishable (h : Alike s t) : Indistinguishable s t := by
  intro ops
  induction ops generalizing s t with
  | nil => rfl
  | cons op ops ih =>
    obtain ⟨hnext, hresponse⟩ := h.perform op
    simp only [performAll, hresponse, ih hnext]

/-! ## Copies -/

def isSeeded (s : Session) : Bool := s.machine.memory.devices.generator.source.isSeeded

/-- A copy of the session, to whose later resets the operating system gives these keys. -/
def copy (s : Session) (entropy : Entropy) : Session :=
  let source := s.machine.memory.devices.generator.source.withEntropy entropy
  { s with machine.memory.devices.generator.source := source }

theorem copy_eq_copy {s : Session} {entropy entropy' : Entropy}
    (h : s.isSeeded = true ∨ entropy = entropy') : s.copy entropy = s.copy entropy' := by
  rcases h with hseeded | rfl
  · simp only [copy, RandomSource.withEntropy_of_isSeeded hseeded]
  · rfl

theorem isSeeded_install (s : Session) (p : Program) : (s.install p).isSeeded = s.isSeeded :=
  RandomSource.isSeeded_next _

theorem isSeeded_perform (s : Session) (op : Operation) :
    (s.perform op).1.isSeeded = s.isSeeded := by
  cases op with
  | load source =>
    simp only [perform, load]
    cases assemble source with
    | ok p => exact s.isSeeded_install p
    | error diagnostics => rfl
  | loadImage image =>
    simp only [perform, loadImage]
    cases readImage image with
    | ok p => exact s.isSeeded_install p
    | error diagnostics => rfl
  | step => exact congrArg (·.2.isSeeded) (s.machine.external_step s.program)
  | run limit => exact congrArg (·.2.isSeeded) (s.machine.external_run s.program s.breakpoints _)
  | reset => exact s.isSeeded_install s.program
  | breakpoint address =>
    simp only [perform, breakpoint]
    split <;> rfl
  | state | listing | input value => rfl

/-- The sessions that are configured with a seed are those whose random bytes come from one. -/
theorem isSeeded_performAll (config : Config) (entropy : Entropy) (ops : List Operation) :
    ((new config entropy).performAll ops).1.isSeeded = config.seed.isSome := by
  have hnew : (new config entropy).isSeeded = config.seed.isSome := by
    simp only [new, isSeeded, Machine.new, Memory.new, Devices.new, RandomSource.new]
    cases config.seed <;> rfl
  exact performAll_preserves (P := fun s => s.isSeeded = config.seed.isSome)
    (fun s op h => (s.isSeeded_perform op).trans h) hnew ops

end Session
end ByteMachine
