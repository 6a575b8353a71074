import ByteMachine.Proofs.HistoryIndependence
import ByteMachine.Proofs.PanelBreakpoints
import Mathlib.Data.List.DropRight
import Mathlib.Data.Nat.Bitwise
import Mathlib.Tactic.IntervalCases

/-!
# What the panel keeps of its session

The panel shows a snapshot and a listing that it has read from its session earlier. Every key and
every tick reads again what it changes, so both are always those of the session as it is. The
controller byte of the panel is the sample of the session, and each of its bits is the parity of the
presses of one key since the buttons were released last; a reset changes neither.
-/
namespace ByteMachine

def Event.presses (key : Key) : Event → Bool
  | .key e => e.action == .press && e.key == key
  | .tick _ => false

namespace Panel

def buttonKey (button : Nat) : Key := .char (Nat.digitChar (button + 1))

def releaseKey : Key := .char '0'

/-- How often a button was pressed after the last release of all. -/
def pressCount (es : List Event) (button : Nat) : Nat :=
  (es.rtakeWhile fun e => !e.presses releaseKey).countP fun e => e.presses (buttonKey button)

/-- All that the panel keeps of its session is what the session is now. -/
structure Fresh (p : Panel) : Prop where
  snapshot : p.snapshot = p.session.snapshot
  listing : p.listing = p.session.listing
  controller : p.controller = p.session.machine.memory.devices.controller
  active : p.running = true → p.snapshot.halted = false
  cursor_lt : p.listing ≠ [] → p.cursor < p.listing.length
  cursor_eq_zero : p.listing = [] → p.cursor = 0

theorem length_listing (s : Session) : s.listing.length = s.program.size := by
  simp [Session.listing, Program.listing, Program.size]

/-- Toggling a breakpoint changes nothing of the session but its breakpoints. -/
theorem exists_breakpoints (s : Session) (address : Nat) :
    ∃ b, (s.breakpoint address).1 = { s with breakpoints := b } := by
  unfold Session.breakpoint
  split
  · exact ⟨_, rfl⟩
  · exact ⟨s.breakpoints, rfl⟩

theorem handleAll_concat (p : Panel) (es : List Event) (e : Event) :
    p.handleAll (es ++ [e]) = (p.handleAll es).handle e := by
  rw [handleAll, List.foldl_append]
  rfl

/-- The cursor is where it may be when it is not below the last row. -/
theorem Fresh.of_le_lastRow {p : Panel} (hsnapshot : p.snapshot = p.session.snapshot)
    (hlisting : p.listing = p.session.listing)
    (hcontroller : p.controller = p.session.machine.memory.devices.controller)
    (hactive : p.running = true → p.snapshot.halted = false) (hcursor : p.cursor ≤ p.lastRow) :
    Fresh p := by
  unfold lastRow at hcursor
  refine ⟨hsnapshot, hlisting, hcontroller, hactive, ?_, ?_⟩
  · intro hne
    have hlength := List.length_pos_iff.mpr hne
    omega
  · intro hnil
    rw [hnil] at hcursor
    exact Nat.le_zero.mp hcursor

theorem Fresh.cursor_le {p : Panel} (h : p.Fresh) : p.cursor ≤ p.lastRow := by
  unfold lastRow
  by_cases hnil : p.listing = []
  · rw [h.cursor_eq_zero hnil]
    exact Nat.zero_le _
  · exact Nat.le_sub_one_of_lt (h.cursor_lt hnil)

theorem Fresh.new {session : Session} (h : session.machine.memory.devices.controller = 0)
    (title : Text) : Fresh (new session title) :=
  .of_le_lastRow rfl rfl h.symm (fun hrunning => by cases hrunning) (Nat.zero_le _)

/-- Reading back a session of the same program is all that has to be done. -/
theorem Fresh.apply {p : Panel} {session : Session} (h : p.cursor ≤ p.session.program.size - 1)
    (hprogram : session.program = p.session.program)
    (hcontroller : p.controller = session.machine.memory.devices.controller) :
    Fresh (p.apply session) := by
  refine .of_le_lastRow rfl rfl hcontroller ?_ ?_
  · intro hrunning
    have hactive : session.snapshot.halted = false := by
      simpa using (Bool.and_eq_true_iff.mp hrunning).2
    exact hactive
  · have hlast : (p.apply session).lastRow = session.program.size - 1 :=
      congrArg (· - 1) (length_listing session)
    rw [hlast, hprogram]
    exact h

section Keys
variable {p : Panel}

/-- What is kept for comparison, the scroll, the message and the end make no difference. -/
theorem Fresh.redraw (h : p.Fresh) (registers memory : List UInt8) (scroll : Nat)
    (message : Option String) (quit : Bool) :
    Fresh { p with
      previousRegisters := registers, previousMemory := memory, scroll, message, quit } :=
  ⟨h.snapshot, h.listing, h.controller, h.active, h.cursor_lt, h.cursor_eq_zero⟩

theorem Fresh.cursor_le_size (h : p.Fresh) : p.cursor ≤ p.session.program.size - 1 := by
  rw [← length_listing, ← h.listing]
  exact h.cursor_le

theorem controller_step (s : Session) :
    s.step.machine.memory.devices.controller = s.machine.memory.devices.controller :=
  congrArg Prod.fst (Machine.external_step s.program s.machine)

theorem controller_run (s : Session) (limit : Option Nat) :
    (s.run limit).machine.memory.devices.controller = s.machine.memory.devices.controller :=
  congrArg Prod.fst (Machine.external_run s.program s.breakpoints _ s.machine)

theorem Fresh.singleStep (h : p.Fresh) : p.singleStep.Fresh :=
  .apply h.cursor_le_size rfl (h.controller.trans (controller_step p.session).symm)

theorem Fresh.toggleRunning (h : p.Fresh) : p.toggleRunning.Fresh := by
  unfold Panel.toggleRunning
  split
  · exact h.redraw ..
  · rename_i hactive
    exact ⟨h.snapshot, h.listing, h.controller, fun _ => eq_false_of_ne_true hactive, h.cursor_lt,
      h.cursor_eq_zero⟩

theorem Fresh.reset (h : p.Fresh) : p.reset.Fresh := by
  have hread : Fresh (({ p with running := false, message := some "reset" } : Panel).apply
      p.session.reset) := .apply h.cursor_le_size rfl h.controller
  exact hread.redraw ..

/-- A breakpoint is not shown in a snapshot, so that only the listing is read again. -/
theorem Fresh.toggleBreakpoint (h : p.Fresh) : p.toggleBreakpoint.Fresh := by
  obtain ⟨b, hb⟩ := exists_breakpoints p.session p.cursor
  have hsnapshot : (p.session.breakpoint p.cursor).1.snapshot = p.session.snapshot := by
    rw [hb]
    rfl
  have hlast : p.toggleBreakpoint.lastRow = p.session.program.size - 1 := by
    have hlength := length_listing (p.session.breakpoint p.cursor).1
    rw [hb] at hlength
    exact congrArg (· - 1) ((congrArg (fun s => s.listing.length) hb).trans hlength)
  refine .of_le_lastRow (h.snapshot.trans hsnapshot.symm) rfl ?_ h.active ?_
  · exact h.controller.trans (congrArg (·.machine.memory.devices.controller) hb.symm)
  · rw [hlast]
    exact h.cursor_le_size

theorem Fresh.setController (h : p.Fresh) (value : UInt8) : (p.setController value).Fresh :=
  .apply h.cursor_le_size rfl rfl

theorem Fresh.moveCursor (h : p.Fresh) (row : Nat) : (p.moveCursor row).Fresh :=
  .of_le_lastRow h.snapshot h.listing h.controller h.active (Nat.min_le_right ..)

theorem Fresh.pressKey (h : p.Fresh) (key : Key) : (p.pressKey key).Fresh := by
  have hquit : Fresh { p with quit := true } := h.redraw ..
  cases key with
  | char c =>
    simp only [Panel.pressKey]
    split
    · exact hquit
    · exact h.singleStep
    · exact h.toggleRunning
    · exact h.reset
    · exact h.toggleBreakpoint
    · exact h.moveCursor _
    · exact h.setController 0
    · split
      · exact h.setController _
      · exact h
  | escape => exact hquit
  | up | down | pageUp | pageDown | home | last => exact h.moveCursor _
  | other => exact h

theorem Fresh.handleKey (h : p.Fresh) (e : KeyEvent) : (p.handleKey e).Fresh := by
  unfold Panel.handleKey
  split
  · exact h
  · split
    · exact h.redraw ..
    · exact (h.pressKey e.key).redraw ..

theorem Fresh.runBatch (h : p.Fresh) : p.runBatch.Fresh := by
  have hcontroller := h.controller.trans (controller_run p.session (some batch)).symm
  unfold Panel.runBatch
  dsimp only
  split
  · exact .apply h.cursor_le_size rfl hcontroller
  · exact .apply h.cursor_le_size rfl hcontroller

theorem Fresh.tick (h : p.Fresh) (due : Bool) : (p.tick due).Fresh := by
  have hrun : Fresh (if p.running && due then p.runBatch else p) := by
    split
    · exact h.runBatch
    · exact h
  obtain ⟨scroll, htick⟩ := p.exists_scroll_tick due
  rw [htick]
  exact hrun.redraw ..

theorem Fresh.handle (h : p.Fresh) (e : Event) : (p.handle e).Fresh := by
  cases e with
  | key e => exact h.handleKey e
  | tick due => exact h.tick due

theorem Fresh.handleAll (h : p.Fresh) (es : List Event) : (p.handleAll es).Fresh := by
  induction es generalizing p with
  | nil => exact h
  | cons e es ih => exact ih (h.handle e)

end Keys

section Buttons

theorem exists_buttonKey {c : Char} (h : '1' ≤ c ∧ c ≤ '8') :
    ∃ button < 8, Key.char c = buttonKey button ∧ c.toNat - '1'.toNat = button := by
  obtain ⟨hlow, hhigh⟩ : 49 ≤ c.toNat ∧ c.toNat ≤ 56 := h
  refine ⟨c.toNat - 49, by omega, ?_, rfl⟩
  obtain ⟨n, hn⟩ : ∃ n, c.toNat = n := ⟨_, rfl⟩
  have hc : c = Char.ofNat n := by rw [← hn, Char.ofNat_toNat]
  rw [hn] at hlow hhigh ⊢
  rw [hc]
  interval_cases n <;> rfl

theorem buttonKey_injective {button button' : Nat} (h : button < 8) (h' : button' < 8)
    (hkey : buttonKey button = buttonKey button') : button = button' := by
  revert hkey
  revert button'
  revert button
  decide

theorem pressKey_buttonKey (p : Panel) {button : Nat} (h : button < 8) :
    p.pressKey (buttonKey button) = p.pressButton button := by
  interval_cases button <;> rfl

/-- Other keys leave the controller alone. -/
theorem controller_pressKey {p : Panel} {key : Key} (hrelease : key ≠ releaseKey)
    (hbutton : ∀ button < 8, key ≠ buttonKey button) :
    (p.pressKey key).controller = p.controller := by
  cases key with
  | char c =>
    simp only [pressKey]
    split
    · rfl
    · rfl
    · unfold toggleRunning
      split <;> rfl
    · rfl
    · rfl
    · rfl
    · exact absurd rfl hrelease
    · split
      · rename_i hdigit
        obtain ⟨button, hlt, hkey, -⟩ := exists_buttonKey hdigit
        exact absurd hkey (hbutton button hlt)
      · rfl
  | escape | up | down | pageUp | pageDown | home | last | other => rfl

theorem controller_tick (p : Panel) (due : Bool) : (p.tick due).controller = p.controller := by
  obtain ⟨scroll, htick⟩ := p.exists_scroll_tick due
  have hrun : p.runBatch.controller = p.controller := by
    unfold runBatch
    dsimp only
    split <;> rfl
  rw [htick]
  dsimp only
  split
  · exact hrun
  · rfl

theorem testBit_flip (value : UInt8) {button bit : Nat} (h : button < 8) :
    (value ^^^ (1 <<< UInt8.ofNat button)).toNat.testBit bit =
      (value.toNat.testBit bit ^^ decide (button = bit)) := by
  have hshift : ((1 : UInt8) <<< UInt8.ofNat button).toNat = 2 ^ button := by
    interval_cases button <;> rfl
  rw [UInt8.toNat_xor, Nat.testBit_xor, hshift, Nat.testBit_two_pow]

/-- A press of a key of the controller flips its bit or clears all. -/
theorem testBit_pressKey (p : Panel) (key : Key) {bit : Nat} (h : bit < 8) :
    (p.pressKey key).controller.toNat.testBit bit =
      (!(key == releaseKey) && (p.controller.toNat.testBit bit ^^ (key == buttonKey bit))) := by
  by_cases hrelease : key = releaseKey
  · rw [hrelease]
    simp [releaseKey, pressKey, setController, apply]
  · by_cases hbutton : ∃ button < 8, key = buttonKey button
    · obtain ⟨button, hlt, rfl⟩ := hbutton
      have hbit : (buttonKey button == buttonKey bit) = decide (button = bit) := by
        rw [beq_eq_decide, decide_eq_decide]
        exact ⟨buttonKey_injective hlt h, congrArg buttonKey⟩
      have hpressed : (p.pressKey (buttonKey button)).controller =
          p.controller ^^^ (1 <<< UInt8.ofNat button) := by
        rw [pressKey_buttonKey p hlt]
        rfl
      rw [beq_false_of_ne hrelease, hpressed, testBit_flip _ hlt, hbit, Bool.not_false,
        Bool.true_and]
    · have hother : ∀ button < 8, key ≠ buttonKey button := fun button hlt hkey =>
        hbutton ⟨button, hlt, hkey⟩
      rw [controller_pressKey hrelease hother, beq_false_of_ne hrelease,
        beq_false_of_ne (hother bit h), Bool.not_false, Bool.true_and, Bool.xor_false]

/-- The key that quits is none of the controller's. -/
theorem quitKey_ne_buttonKey {bit : Nat} (h : bit < 8) : Key.char 'c' ≠ buttonKey bit := by
  revert bit
  decide

/-- Of all events, the presses of keys of the controller are those that change it. -/
theorem testBit_handle (p : Panel) (e : Event) {bit : Nat} (h : bit < 8) :
    (p.handle e).controller.toNat.testBit bit =
      (!e.presses releaseKey && (p.controller.toNat.testBit bit ^^ e.presses (buttonKey bit))) := by
  match e with
  | .tick due =>
    change (p.tick due).controller.toNat.testBit bit = _
    rw [controller_tick]
    simp [Event.presses]
  | .key e =>
    change (p.handleKey e).controller.toNat.testBit bit = _
    unfold handleKey
    by_cases hpress : e.action = .press
    · rw [if_neg (not_not_intro hpress)]
      simp only [Event.presses, hpress, beq_self_eq_true, Bool.true_and]
      split
      · rename_i hquit
        have hrelease : Key.char 'c' ≠ releaseKey := by decide
        simp [hquit.2, beq_false_of_ne hrelease, beq_false_of_ne (quitKey_ne_buttonKey h)]
      · exact p.testBit_pressKey e.key h
    · rw [if_pos hpress]
      simp [Event.presses, beq_false_of_ne hpress]

theorem pressCount_concat (es : List Event) (e : Event) (button : Nat) :
    pressCount (es ++ [e]) button =
      if e.presses releaseKey then 0
      else pressCount es button + if e.presses (buttonKey button) then 1 else 0 := by
  unfold pressCount
  rw [List.rtakeWhile_concat]
  cases hrelease : e.presses releaseKey with
  | true => simp
  | false => simp [List.countP_append, List.countP_cons]

/-- The bits of the controller are the parities of the presses. The induction takes off the last
event. -/
theorem testBit_handleAll {p : Panel} (hp : p.controller = 0) (es : List Event) {bit : Nat}
    (h : bit < 8) :
    (p.handleAll es).controller.toNat.testBit bit = decide (Odd (pressCount es bit)) := by
  induction es using List.reverseRecOn with
  | nil =>
    have hnone : ¬ Odd (pressCount [] bit) := Nat.not_odd_zero
    rw [decide_eq_false hnone, handleAll, List.foldl_nil, hp]
    exact Nat.zero_testBit bit
  | append_singleton es e ih =>
    rw [handleAll_concat, testBit_handle _ e h, ih, pressCount_concat]
    cases e.presses releaseKey with
    | true => simp
    | false =>
      cases e.presses (buttonKey bit) with
      | true => simp [Nat.odd_add_one, -Nat.not_odd_iff_even]
      | false => simp

end Buttons

/-- After any keys and ticks the panel shows its session as it is, and the bits of the controller
are set for the buttons that were pressed an odd number of times since the last release. -/
theorem fresh_handleAll {session : Session}
    (h : session.machine.memory.devices.controller = 0) (title : Text) (es : List Event) :
    Fresh ((new session title).handleAll es) ∧
      ∀ button < 8, ((new session title).handleAll es).controller.toNat.testBit button = true ↔
        Odd (pressCount es button) := by
  refine ⟨(Fresh.new h title).handleAll es, fun button hbutton => ?_⟩
  have hnew : (new session title).controller = 0 := rfl
  rw [testBit_handleAll hnew es hbutton, decide_eq_true_eq]

def played : List Event :=
  (['3', '0', '1', '8', 'r'].map fun c => .key { key := .char c }) ++ [.tick false, .tick true] ++
    ['x', '1', 's', 'g', 'b', '1'].map fun c => .key { key := .char c }

theorem fresh_handleAll_played :
    let session := ((Session.new { seed := some 1 } default).load ".top inc r1\njmp top".toList).1
    let p := (new session "prog".toList).handleAll played
    session.machine.memory.devices.controller = 0 ∧ p.controller = 0x81 ∧ p.cursor = 1 ∧
      pressCount played 0 = 3 ∧ pressCount played 2 = 0 ∧ Fresh p ∧
      ∀ button < 8, p.controller.toNat.testBit button = true ↔ Odd (pressCount played button) := by
  intro session p
  have hcontroller : session.machine.memory.devices.controller = 0 := by decide +kernel
  obtain ⟨hfresh, hbits⟩ := fresh_handleAll hcontroller "prog".toList played
  exact ⟨hcontroller, by decide +kernel, by decide +kernel, by decide +kernel, by decide +kernel,
    hfresh, hbits⟩

end Panel
end ByteMachine
