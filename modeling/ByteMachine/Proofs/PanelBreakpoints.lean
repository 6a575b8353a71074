import ByteMachine.Panel.Basic
import ByteMachine.Proofs.Runs

/-!
# Breakpoints under the panel

While the panel is running, a tick runs the machine for a batch of instructions, and every run
passes over a breakpoint where it starts. So a breakpoint that the panel arrives at within a batch
pauses it there, and one that it arrives at between two batches does not: the next tick executes the
instruction. Counted from the start of running, the instructions at breakpoints that ticks execute
are at multiples of the batch.
-/
namespace ByteMachine.Panel

def handleAll (p : Panel) (es : List Event) : Panel := es.foldl handle p

def RunsThrough : Panel → List Event → Prop
  | _, [] => True
  | p, e :: es => p.running = true ∧ RunsThrough (p.handle e) es

def ticked (p : Panel) : Event → List UInt16
  | .key _ => []
  | .tick due =>
    p.session.machine.path p.session.program
      ((p.tick due).session.machine.processor.executed - p.session.machine.processor.executed)

/-- The addresses of the instructions that ticks execute, each with whether it carries a breakpoint
at that time. -/
def trace : Panel → List Event → List (UInt16 × Bool)
  | _, [] => []
  | p, e :: es =>
    (p.ticked e).map (fun a => (a, p.session.breakpoints.contains a.toNat)) ++ trace (p.handle e) es

theorem trace_append (p : Panel) (es es' : List Event) :
    p.trace (es ++ es') = p.trace es ++ (p.handleAll es).trace es' := by
  induction es generalizing p with
  | nil => rfl
  | cons e es ih => rw [List.cons_append, trace, trace, ih, List.append_assoc]; rfl

theorem runsThrough_append {p : Panel} {es es' : List Event} (h : p.RunsThrough (es ++ es')) :
    p.RunsThrough es ∧ (p.handleAll es).RunsThrough es' := by
  induction es generalizing p with
  | nil => exact ⟨trivial, h⟩
  | cons e es ih => exact ⟨⟨h.1, (ih h.2).1⟩, (ih h.2).2⟩

theorem session_runBatch (p : Panel) : p.runBatch.session = p.session.run (some batch) := by
  unfold runBatch
  dsimp only
  split <;> rfl

theorem running_runBatch (p : Panel) :
    p.runBatch.running = true ↔ p.running = true ∧ p.runBatch.session.stop ≠ some .breakpoint ∧
      p.runBatch.session.machine.isHalted = false := by
  rw [session_runBatch]
  unfold runBatch
  dsimp only
  have hsession : p.remember.session = p.session := rfl
  have hhalted (s : Session) : s.snapshot.halted = s.machine.isHalted := rfl
  rw [hsession]
  split
  · rename_i hstop
    simp [apply, hstop]
  · rename_i hstop
    simp [apply, hstop, hhalted, remember]

/-- A tick scrolls after it has run a batch. -/
theorem exists_scroll_tick (p : Panel) (due : Bool) :
    ∃ scroll, p.tick due = { (if p.running && due then p.runBatch else p) with scroll } := by
  unfold tick
  dsimp only
  generalize (if p.running && due then p.runBatch else p) = q
  split
  · exact ⟨_, rfl⟩
  · exact ⟨q.scroll, rfl⟩

theorem tick_eq (p : Panel) (due : Bool) :
    (p.tick due).session = (if p.running && due then p.runBatch else p).session ∧
      (p.tick due).running = (if p.running && due then p.runBatch else p).running := by
  obtain ⟨scroll, htick⟩ := p.exists_scroll_tick due
  rw [htick]
  exact ⟨rfl, rfl⟩

theorem session_tick_due {p : Panel} (h : p.running = true) :
    (p.tick true).session = p.session.run (some batch) := by
  rw [(p.tick_eq true).1, h]
  exact p.session_runBatch

theorem running_tick_due {p : Panel} (h : p.running = true) :
    (p.tick true).running = true ↔ (p.tick true).session.stop ≠ some .breakpoint ∧
      (p.tick true).session.machine.isHalted = false := by
  rw [(p.tick_eq true).1, (p.tick_eq true).2, h]
  exact p.running_runBatch.trans (and_iff_right h)

theorem session_tick_not_due (p : Panel) : (p.tick false).session = p.session := by
  rw [(p.tick_eq false).1, Bool.and_false]
  rfl

theorem ticked_not_due (p : Panel) : p.ticked (.tick false) = [] := by
  rw [ticked, session_tick_not_due, Nat.sub_self]
  rfl

/-- What a due tick does while the panel is running: it executes a path of the machine with a
breakpoint on none but its first instruction. -/
theorem repeated_tick {p : Panel} (h : p.running = true)
    (hactive : p.session.machine.isHalted = false) :
    ∃ reason, (p.tick true).session.stop = some reason ∧
      Machine.Repeated p.session.program p.session.breakpoints batch true p.session.machine
        (p.tick true).session.machine reason (p.ticked (.tick true)).length ∧
      p.ticked (.tick true) = p.session.machine.path p.session.program
        (p.ticked (.tick true)).length := by
  obtain ⟨k, hrun⟩ := Machine.run_repeated p.session.program p.session.breakpoints batch hactive
  have hmachine : (p.tick true).session.machine =
      (p.session.machine.run p.session.program p.session.breakpoints batch).1 := by
    rw [session_tick_due h]
    rfl
  have hticked : p.ticked (.tick true) = p.session.machine.path p.session.program k := by
    rw [ticked, hmachine, hrun.executed, Nat.add_sub_cancel_left]
  have hlength : (p.ticked (.tick true)).length = k := by rw [hticked, hrun.length]
  rw [hlength, hmachine]
  refine ⟨_, ?_, hrun, hticked⟩
  rw [session_tick_due h]
  rfl

theorem ticked_of_halted {p : Panel} (h : p.running = true)
    (hhalted : p.session.machine.isHalted = true) :
    p.ticked (.tick true) = [] ∧ (p.tick true).session.machine.isHalted = true := by
  have hmachine : (p.tick true).session.machine = p.session.machine := by
    rw [session_tick_due h]
    simp [Session.run, Machine.run, hhalted]
  rw [ticked, hmachine, Nat.sub_self]
  exact ⟨rfl, hhalted⟩

/-- The addresses of a tick with a breakpoint are at most the first of them. -/
theorem eq_zero_of_ticked {p : Panel} (h : p.running = true) {e : Event} {j : Nat} {a : UInt16}
    (hj : (p.ticked e)[j]? = some a) (ha : p.session.breakpoints.contains a.toNat = true) :
    j = 0 := by
  match e with
  | .key e => simp [ticked] at hj
  | .tick false => simp [ticked_not_due] at hj
  | .tick true =>
    by_cases hhalted : p.session.machine.isHalted = true
    · simp [(ticked_of_halted h hhalted).1] at hj
    · obtain ⟨reason, -, hrepeated, hpath⟩ := repeated_tick h (eq_false_of_ne_true hhalted)
      rw [hpath] at hj
      exact (hrepeated.clear j a hj ha).2

/-- A due tick leaves the panel running after a whole batch, or the machine halted, or it pauses the
panel at a breakpoint within the batch. -/
theorem due_tick {p : Panel} (h : p.running = true) :
    ((p.tick true).running = true ∧ (p.ticked (.tick true)).length = batch) ∨
      (p.tick true).session.machine.isHalted = true ∨
      ((p.tick true).running = false ∧
        p.session.breakpoints.contains (p.tick true).session.machine.processor.pc.toNat = true ∧
        0 < (p.ticked (.tick true)).length ∧ (p.ticked (.tick true)).length < batch) := by
  by_cases hhalted : p.session.machine.isHalted = true
  · exact .inr (.inl (ticked_of_halted h hhalted).2)
  · obtain ⟨reason, hstop, hrepeated, -⟩ := repeated_tick h (eq_false_of_ne_true hhalted)
    have hrunning := running_tick_due h
    rw [hstop] at hrunning
    cases reason with
    | halted => exact .inr (.inl (hrepeated.halted.mp rfl))
    | breakpoint =>
      obtain ⟨hpc, hlt, hpos⟩ := hrepeated.paused rfl
      have hpaused : (p.tick true).running = false := by simpa using hrunning
      exact .inr (.inr ⟨hpaused, hpc, hpos rfl, hlt⟩)
    | limit =>
      have hactive : (p.tick true).session.machine.isHalted = false := by
        simpa using hrepeated.halted
      exact .inl ⟨hrunning.mpr ⟨by simp, hactive⟩, hrepeated.full rfl⟩

/-- An event that leaves the panel running executes a whole batch or nothing. -/
theorem batch_dvd_length_ticked {p : Panel} {e : Event} (h : p.running = true)
    (h' : (p.handle e).running = true) : batch ∣ (p.ticked e).length := by
  match e with
  | .key e => exact Nat.dvd_zero batch
  | .tick false =>
    rw [ticked_not_due]
    exact Nat.dvd_zero batch
  | .tick true =>
    rcases due_tick h with ⟨-, hlength⟩ | hhalted | ⟨hpaused, -⟩
    · exact ⟨1, by rw [Nat.mul_one, hlength]⟩
    · have hactive := ((running_tick_due h).mp h').2
      rw [hhalted] at hactive
      cases hactive
    · have hrunning : (p.tick true).running = true := h'
      rw [hpaused] at hrunning
      cases hrunning

theorem batch_dvd_length_trace {p : Panel} {es : List Event} (h : p.RunsThrough es)
    (h' : (p.handleAll es).running = true) : batch ∣ (p.trace es).length := by
  induction es generalizing p with
  | nil => exact Nat.dvd_zero batch
  | cons e es ih =>
    have hnext : (p.handle e).running = true := by
      cases es with
      | nil => exact h'
      | cons e' es => exact h.2.1
    rw [trace, List.length_append, List.length_map]
    exact Nat.dvd_add (batch_dvd_length_ticked h.1 hnext) (ih h.2 h')

/-- While the panel keeps running, ticks execute instructions at breakpoints only at multiples of
the batch. The induction takes off the event that comes first: its instructions are a batch or none
when others follow. -/
theorem batch_dvd_of_trace {p : Panel} {es : List Event} (h : p.RunsThrough es) {k : Nat}
    {a : UInt16} (hk : (p.trace es)[k]? = some (a, true)) : batch ∣ k := by
  induction es generalizing p k with
  | nil => simp [trace] at hk
  | cons e es ih =>
    rw [trace] at hk
    by_cases hlt : k < (p.ticked e).length
    · rw [List.getElem?_append_left (by simpa using hlt), List.getElem?_map,
        Option.map_eq_some_iff] at hk
      obtain ⟨a', ha', hpair⟩ := hk
      obtain ⟨rfl, hbreakpoint⟩ := Prod.mk.inj hpair
      rw [eq_zero_of_ticked h.1 ha' hbreakpoint]
      exact Nat.dvd_zero batch
    · cases es with
      | nil =>
        rw [trace, List.append_nil] at hk
        have hbound := (List.getElem?_eq_some_iff.mp hk).1
        rw [List.length_map] at hbound
        exact absurd hbound hlt
      | cons e' es =>
        have hfirst := batch_dvd_length_ticked h.1 h.2.1
        rw [List.getElem?_append_right (by simpa using hlt), List.length_map] at hk
        have hrest := ih h.2 hk
        have hk : k = (k - (p.ticked e).length) + (p.ticked e).length := by omega
        rw [hk]
        exact Nat.dvd_add hrest hfirst

/-- A due tick executes the instruction at the program counter whether or not it carries a
breakpoint. -/
theorem ticked_head {p : Panel} (h : p.running = true)
    (hexecutes : p.session.machine.Executes p.session.program) :
    (p.ticked (.tick true))[0]? = some p.session.machine.processor.pc := by
  by_cases hhalted : p.session.machine.isHalted = true
  · simp [Machine.Executes, Machine.step, hhalted] at hexecutes
  · obtain ⟨reason, -, hrepeated, hpath⟩ := repeated_tick h (eq_false_of_ne_true hhalted)
    have hpos := hrepeated.started rfl (by decide) hexecutes
    obtain ⟨n, hn⟩ := Nat.exists_eq_succ_of_ne_zero (Nat.pos_iff_ne_zero.mp hpos)
    rw [hpath, hn, Machine.path_succ hexecutes]
    rfl

/-- Breakpoints stop the panel within a batch and never between two. As long as the panel keeps
running, instructions at breakpoints are executed by ticks only at multiples of 64, counted from the
start. Whenever a due tick comes, the number of instructions so far is such a multiple, and the
instruction at the program counter is executed, breakpoint or not, if it can be; and the tick leaves
the panel running, or the machine halted, or paused at a breakpoint after a number of instructions
that is no such multiple. -/
theorem trace_breakpoints (p : Panel) (es : List Event) (h : p.RunsThrough es) :
    (∀ k a, (p.trace es)[k]? = some (a, true) → 64 ∣ k) ∧
      ∀ before after q q', es = before ++ .tick true :: after → q = p.handleAll before →
        q' = q.tick true →
          64 ∣ (p.trace before).length ∧
          (q.session.machine.Executes q.session.program →
            (p.trace es)[(p.trace before).length]? = some (q.session.machine.processor.pc,
              q.session.breakpoints.contains q.session.machine.processor.pc.toNat)) ∧
          (q'.running = true ∨ q'.session.machine.isHalted = true ∨
            q.session.breakpoints.contains q'.session.machine.processor.pc.toNat = true ∧
              ¬ 64 ∣ (p.trace (before ++ [.tick true])).length) := by
  refine ⟨fun k a hk => batch_dvd_of_trace h hk, ?_⟩
  rintro before after _ _ rfl rfl rfl
  obtain ⟨hbefore, hrunning, -⟩ := runsThrough_append h
  have hdvd : 64 ∣ (p.trace before).length := batch_dvd_length_trace hbefore hrunning
  refine ⟨hdvd, ?_, ?_⟩
  · intro hexecutes
    have hhead := ticked_head hrunning hexecutes
    rw [trace_append, List.getElem?_append_right (Nat.le_refl _), Nat.sub_self, trace,
      List.getElem?_append_left, List.getElem?_map, hhead]
    · rfl
    · rw [List.length_map]
      exact (List.getElem?_eq_some_iff.mp hhead).1
  · have hlength : (p.trace (before ++ [.tick true])).length =
        (p.trace before).length + ((p.handleAll before).ticked (.tick true)).length := by
      simp [trace_append, trace]
    rw [hlength]
    rcases due_tick hrunning with ⟨hgoing, -⟩ | hhalted | ⟨-, hpc, hpos, hlt⟩
    · exact .inl hgoing
    · exact .inr (.inl hhalted)
    · refine .inr (.inr ⟨hpc, ?_⟩)
      unfold batch at hlt
      omega

/-- A panel that runs from the top towards a breakpoint that is 64 instructions away. -/
def countdown : Panel :=
  let source := "nop\nldi r1 31\n.loop dec r1\nbrh nz loop\nnop\n.end jmp end".toList
  (new ((Session.new { seed := some 1 } default).load source).1 "prog".toList).handleAll
    ([.down, .down, .down, .down, .char 'b', .char 'r'].map fun key => .key { key })

theorem runsThrough_countdown : countdown.RunsThrough [.tick true, .tick true] :=
  ⟨by decide +kernel, by decide +kernel, trivial⟩

/-- The panel arrives at the breakpoint at the end of the first batch, does not pause, and executes
the instruction at it with the second. -/
theorem countdown_runs_over :
    countdown.session.breakpoints.contains 4 = true ∧
      countdown.RunsThrough [.tick true, .tick true] ∧
      (countdown.trace [.tick true, .tick true])[64]? = some (4, true) :=
  ⟨by decide +kernel, runsThrough_countdown, by decide +kernel⟩

theorem trace_countdown :
    countdown.RunsThrough [.tick true, .tick true] ∧
      (∀ k a, (countdown.trace [.tick true, .tick true])[k]? = some (a, true) → 64 ∣ k) ∧
      64 ∣ (countdown.trace [.tick true]).length := by
  obtain ⟨honly, hbatches⟩ :=
    trace_breakpoints countdown [.tick true, .tick true] runsThrough_countdown
  exact ⟨runsThrough_countdown, honly, (hbatches [.tick true] [] _ _ rfl rfl rfl).1⟩

end ByteMachine.Panel
