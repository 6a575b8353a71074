import ByteMachine.Proofs.PanelEvents
import ByteMachine.Proofs.PanelGrid

/-!
# What the panel highlights

The panel keeps the registers and the memory as they were before the latest execution, or after a
reset if that came later, and highlights what differs from them. An execution is a step or the batch
of a tick; the other events leave what is kept. In the memory grid every byte has its place by its
address, and every register has its row in the table, so the highlighted cells tell which bytes and
which registers have changed since.
-/
namespace ByteMachine.Panel

/-! ## The moment of comparison -/

/-- The session that an event makes the panel compare with: as it was before an execution, and as it
is after a reset. -/
def moment? (p : Panel) (e : Event) : Option Session :=
  if e.presses (.char 's') || (p.running && e == .tick true) then some p.session
  else if e.presses (.char 'x') then some (p.handle e).session
  else none

def moments : Panel → List Event → List Session
  | _, [] => []
  | p, e :: es => (p.moment? e).toList ++ moments (p.handle e) es

def baseline (p : Panel) (es : List Event) : Session := (p.moments es).getLastD p.session

structure Compares (p : Panel) (base : Session) : Prop where
  registers : p.previousRegisters = base.snapshot.registers
  memory : p.previousMemory = base.snapshot.memory

section Compares
variable {p : Panel} {base : Session}

theorem moment?_of_not_presses {e : KeyEvent}
    (h : e.action ≠ .press ∨ e.key ≠ .char 's' ∧ e.key ≠ .char 'x') :
    p.moment? (.key e) = none := by
  have hpresses (c : Char) (hc : e.key ≠ .char c ∨ e.action ≠ .press) :
      (Event.key e).presses (.char c) = false := by
    simp only [Event.presses, Bool.and_eq_false_iff, beq_eq_false_iff_ne]
    exact hc.symm
  have hstep := hpresses 's' (h.symm.imp_left And.left)
  have hreset := hpresses 'x' (h.symm.imp_left And.right)
  have htick : (Event.key e == .tick true) = false := rfl
  rw [moment?, hstep, hreset, htick, Bool.and_false]
  rfl

theorem presses_of_action {e : KeyEvent} (haction : e.action = .press) :
    (Event.key e).presses e.key = true := by
  simp [Event.presses, haction]

theorem Compares.pressed {q : Panel} {e : KeyEvent} (h : p.Compares base)
    (hsnapshot : p.snapshot = p.session.snapshot) (haction : e.action = .press)
    (hhandle : p.handle (.key e) = q.followCursor) (hq : Pressed p e.key q) :
    q.Compares ((p.moment? (.key e)).getD base) := by
  have hpresses := presses_of_action haction
  cases hq with
  | step hkey =>
    rw [hkey] at hpresses
    rw [moment?, hpresses]
    exact ⟨congrArg (·.registers) hsnapshot, congrArg (·.memory) hsnapshot⟩
  | reset hkey =>
    have hstep : (Event.key e).presses (.char 's') = false := by
      simp [Event.presses, hkey]
    have htick : (Event.key e == .tick true) = false := rfl
    rw [hkey] at hpresses
    rw [moment?, hstep, htick, Bool.and_false, hpresses, hhandle]
    exact ⟨rfl, rfl⟩
  | mark hkey =>
    rw [moment?_of_not_presses (.inr (by simp [hkey]))]
    exact ⟨h.registers, h.memory⟩
  | sample hkey value =>
    rw [moment?_of_not_presses (.inr hkey)]
    exact ⟨h.registers, h.memory⟩
  | quiet hkey cursor hcursor running message quit =>
    rw [moment?_of_not_presses (.inr hkey)]
    exact ⟨h.registers, h.memory⟩

theorem previous_runBatch (p : Panel) :
    p.runBatch.previousRegisters = p.snapshot.registers ∧
      p.runBatch.previousMemory = p.snapshot.memory := by
  unfold runBatch
  dsimp only
  split
  · exact ⟨rfl, rfl⟩
  · exact ⟨rfl, rfl⟩

/-- An event that sets a new moment of comparison keeps what the session is then, and no other event
touches what is kept. -/
theorem Compares.handle (h : p.Compares base) (hsnapshot : p.snapshot = p.session.snapshot)
    (e : Event) : (p.handle e).Compares ((p.moment? e).getD base) := by
  have hhandled := p.handled e
  generalize hq : p.handle e = q at hhandled
  cases hhandled with
  | ignored e haction quit =>
    rw [moment?_of_not_presses (haction.imp_right fun hkey => by simp [hkey])]
    exact ⟨h.registers, h.memory⟩
  | pressed e haction hpressed =>
    have hcompares := h.pressed hsnapshot haction hq hpressed
    exact ⟨hcompares.registers, hcompares.memory⟩
  | waited due hwait scroll =>
    have hnone : p.moment? (.tick due) = none := by
      have hdue : (p.running && Event.tick due == .tick true) = false := by
        cases due <;> simp_all
      rw [moment?, hdue]
      rfl
    rw [hnone]
    exact ⟨h.registers, h.memory⟩
  | ran hrunning scroll =>
    have hsome : p.moment? (.tick true) = some p.session := by
      rw [moment?, hrunning]
      rfl
    obtain ⟨hregisters, hmemory⟩ := p.previous_runBatch
    rw [hsome]
    refine ⟨?_, ?_⟩
    · exact hregisters.trans (congrArg (·.registers) hsnapshot)
    · exact hmemory.trans (congrArg (·.memory) hsnapshot)

theorem getLastD_toList_append {α : Type} (o : Option α) (l : List α) (a : α) :
    (o.toList ++ l).getLastD a = l.getLastD (o.getD a) := by
  cases o with
  | none => rfl
  | some b => cases l <;> rfl

theorem Compares.handleAll {program : Program} (h : p.Compares base) (hmirrors : p.Mirrors program)
    (es : List Event) : (p.handleAll es).Compares ((p.moments es).getLastD base) := by
  induction es generalizing p base with
  | nil => exact h
  | cons e es ih =>
    rw [moments, getLastD_toList_append]
    exact ih (h.handle hmirrors.snapshot e) (hmirrors.handle e)

end Compares

/-- After any events the panel compares with the session of the latest moment, and so the bytes and
the registers that it highlights are those that have changed since. -/
theorem changes_shown (session : Session) (title : Text) (es : List Event) :
    let p := (new session title).handleAll es
    let base := (new session title).baseline es
    p.previousRegisters = base.snapshot.registers ∧ p.previousMemory = base.snapshot.memory ∧
      GridShows (memoryGrid p.snapshot.memory p.previousMemory) p.session.machine.memory
        base.machine.memory ∧
      TableShows p.registers p.session.machine.processor base.machine.processor := by
  intro p base
  have hmirrors := Mirrors.new session title
  have hsnapshot : p.snapshot = p.session.snapshot := (hmirrors.handleAll es).snapshot
  have hstart : (new session title).Compares session := ⟨rfl, rfl⟩
  obtain ⟨hregisters, hmemory⟩ : p.Compares base := hstart.handleAll hmirrors es
  refine ⟨hregisters, hmemory, ?_, ?_⟩
  · rw [hsnapshot, hmemory]
    exact gridShows p.session.machine.memory base.machine.memory
  · refine tableShows ?_ hregisters
    rw [hsnapshot]
    rfl

end ByteMachine.Panel
