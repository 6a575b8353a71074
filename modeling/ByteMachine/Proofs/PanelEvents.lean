import ByteMachine.Proofs.PanelView

/-!
# What an event does to the panel

A key steps the session, resets it, toggles a breakpoint in it, gives it a sample, or leaves it as
it is; a tick runs it for a batch or leaves it as it is. Which of these an event does is said once.
The panel shows the session that each of them leaves, and its cursor stays within the listing, since
the program of the session is always the same.
-/
namespace ByteMachine.Panel

inductive Pressed (p : Panel) (key : Key) : Panel → Prop
  | step (hkey : key = .char 's') : Pressed p key p.singleStep
  | reset (hkey : key = .char 'x') : Pressed p key p.reset
  | mark (hkey : key = .char 'b') : Pressed p key p.toggleBreakpoint
  | sample (hkey : key ≠ .char 's' ∧ key ≠ .char 'x') (value : UInt8) :
      Pressed p key (p.setController value)
  | quiet (hkey : key ≠ .char 's' ∧ key ≠ .char 'x') (cursor : Nat)
      (hcursor : cursor = p.cursor ∨ cursor ≤ p.lastRow) (running : Bool) (message : Option String)
      (quit : Bool) : Pressed p key { p with cursor, running, message, quit }

inductive Handled (p : Panel) : Event → Panel → Prop
  | ignored (e : KeyEvent) (haction : e.action ≠ .press ∨ e.key = .char 'c') (quit : Bool) :
      Handled p (.key e) { p with quit }
  | pressed (e : KeyEvent) (haction : e.action = .press) {q : Panel} (h : Pressed p e.key q) :
      Handled p (.key e) q.followCursor
  | waited (due : Bool) (hwait : (p.running && due) = false) (scroll : Nat) :
      Handled p (.tick due) { p with scroll }
  | ran (hrunning : p.running = true) (scroll : Nat) :
      Handled p (.tick true) { p.runBatch with scroll }

theorem Pressed.quiet_cursor {p : Panel} {key : Key} (hkey : key ≠ .char 's' ∧ key ≠ .char 'x')
    (row : Nat) : Pressed p key (p.moveCursor row) :=
  .quiet hkey _ (.inr (Nat.min_le_right ..)) p.running p.message p.quit

theorem Pressed.quiet_quit {p : Panel} {key : Key} (hkey : key ≠ .char 's' ∧ key ≠ .char 'x') :
    Pressed p key { p with quit := true } :=
  .quiet hkey p.cursor (.inl rfl) p.running p.message true

theorem Pressed.nothing {p : Panel} {key : Key} (hkey : key ≠ .char 's' ∧ key ≠ .char 'x') :
    Pressed p key p :=
  .quiet hkey p.cursor (.inl rfl) p.running p.message p.quit

theorem pressed (p : Panel) (key : Key) : Pressed p key (p.pressKey key) := by
  cases key with
  | char c =>
    simp only [pressKey]
    split
    · exact .quiet_quit (by decide)
    · exact .step rfl
    · unfold toggleRunning
      split
      · exact .quiet (by decide) p.cursor (.inl rfl) p.running _ p.quit
      · exact .quiet (by decide) p.cursor (.inl rfl) _ none p.quit
    · exact .reset rfl
    · exact .mark rfl
    · exact .quiet_cursor (by decide) _
    · exact .sample (by decide) 0
    · have hkey : Key.char c ≠ .char 's' ∧ Key.char c ≠ .char 'x' := by
        simp_all
      split
      · exact .sample hkey _
      · exact .nothing hkey
  | escape => exact .quiet_quit (by decide)
  | up | down | pageUp | pageDown | home | last => exact .quiet_cursor (by decide) _
  | other => exact .nothing (by decide)

theorem handled (p : Panel) (e : Event) : Handled p e (p.handle e) := by
  cases e with
  | key e =>
    change Handled p (.key e) (p.handleKey e)
    unfold handleKey
    split
    · rename_i haction
      exact .ignored e (.inl haction) p.quit
    · rename_i haction
      split
      · rename_i hquit
        exact .ignored e (.inr hquit.2) true
      · exact .pressed e (not_not.mp haction) (p.pressed e.key)
  | tick due =>
    change Handled p (.tick due) (p.tick due)
    obtain ⟨scroll, htick⟩ := p.exists_scroll_tick due
    rw [htick]
    cases hdue : p.running && due with
    | false => exact .waited due hdue scroll
    | true =>
      obtain ⟨hrunning, rfl⟩ := Bool.and_eq_true_iff.mp hdue
      exact .ran hrunning scroll

/-- The panel shows its session, which has the program, and its cursor is within the listing. This
asks nothing of the controller, so that it holds whatever session the panel starts with. -/
structure Mirrors (program : Program) (p : Panel) : Prop where
  program_eq : p.session.program = program
  snapshot : p.snapshot = p.session.snapshot
  listing : p.listing = p.session.listing
  cursor_le : p.cursor ≤ program.size - 1

section Mirrors
variable {program : Program} {p q : Panel}

theorem Mirrors.lastRow_eq (h : p.Mirrors program) : p.lastRow = program.size - 1 := by
  rw [lastRow, h.listing, length_listing, h.program_eq]

theorem Mirrors.new (session : Session) (title : Text) :
    (new session title).Mirrors session.program :=
  ⟨rfl, rfl, rfl, Nat.zero_le _⟩

theorem Mirrors.apply {session : Session} (hprogram : session.program = program)
    (hcursor : p.cursor ≤ program.size - 1) : (p.apply session).Mirrors program :=
  ⟨hprogram, rfl, rfl, hcursor⟩

theorem Mirrors.pressed (h : p.Mirrors program) {key : Key} (hq : Pressed p key q) :
    q.Mirrors program := by
  cases hq with
  | step hkey => exact .apply h.program_eq h.cursor_le
  | reset hkey => exact ⟨h.program_eq, rfl, rfl, h.cursor_le⟩
  | mark hkey =>
    obtain ⟨b, hb⟩ := exists_breakpoints p.session p.cursor
    have hsession : p.toggleBreakpoint.session = { p.session with breakpoints := b } := hb
    refine ⟨?_, ?_, rfl, h.cursor_le⟩
    · rw [hsession]
      exact h.program_eq
    · rw [hsession]
      exact h.snapshot
  | sample hkey value => exact .apply h.program_eq h.cursor_le
  | quiet hkey cursor hcursor running message quit =>
    refine ⟨h.program_eq, h.snapshot, h.listing, ?_⟩
    rcases hcursor with rfl | hrow
    · exact h.cursor_le
    · exact hrow.trans_eq h.lastRow_eq

theorem Mirrors.runBatch (h : p.Mirrors program) : p.runBatch.Mirrors program := by
  unfold Panel.runBatch
  dsimp only
  split
  · exact .apply h.program_eq h.cursor_le
  · exact .apply h.program_eq h.cursor_le

theorem Mirrors.handle (h : p.Mirrors program) (e : Event) : (p.handle e).Mirrors program := by
  have hhandled := p.handled e
  generalize p.handle e = q at hhandled
  cases hhandled with
  | ignored e haction quit => exact ⟨h.program_eq, h.snapshot, h.listing, h.cursor_le⟩
  | pressed e haction hq =>
    have hpressed := h.pressed hq
    exact ⟨hpressed.program_eq, hpressed.snapshot, hpressed.listing, hpressed.cursor_le⟩
  | waited due hwait scroll => exact ⟨h.program_eq, h.snapshot, h.listing, h.cursor_le⟩
  | ran hrunning scroll =>
    have hran := h.runBatch
    exact ⟨hran.program_eq, hran.snapshot, hran.listing, hran.cursor_le⟩

theorem Mirrors.handleAll (h : p.Mirrors program) (es : List Event) :
    (p.handleAll es).Mirrors program := by
  induction es generalizing p with
  | nil => exact h
  | cons e es ih => exact ih (h.handle e)

end Mirrors

end ByteMachine.Panel
